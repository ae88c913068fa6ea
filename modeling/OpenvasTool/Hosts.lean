import OpenvasTool.Client
import OpenvasTool.Hydra.DayLists
import OpenvasTool.Hydra.Store
import OpenvasTool.Support.Split

/-!
# Normalised hosts

The client accepts hosts between any commas and blanks. It stores the same hosts
with single commas, which the daemon accepts, and writes the list of a hydra task
with one host on each line.
-/

namespace OpenvasTool

open Posix Posix.Regex Support

/-! ### The hosts of a list -/

/-- A character between two hosts. -/
def isHostSeparator (c : Char) : Bool := c == ',' || isspace c

/-- The hosts of a text: what stands between commas and blanks. -/
def hostItems (text : Text) : List Text := words isHostSeparator text

/-- The function returns 0 and leaves the same hosts in the buffer, in their order and with single
commas, in a text that is not longer, that passes the check, and that it does not change again. -/
structure Normalised {n : ℕ} (escape : CStr n → Option (CStr n)) (chk : Text → Bool)
    (hosts out : CStr n) : Prop where
  returned : escape hosts = some out
  length_le : out.text.length ≤ hosts.text.length
  accepted : chk out.text = true
  items : out.text.splitOn ',' = hostItems hosts.text
  stable : escape out = some out

section Lists

variable {keep : Char → Bool} {x : Regex} {text : Text}

theorem escapeHostsLoop_kept {host : Text} (rest : Text) (isDelim written : Bool)
    (hkeep : ∀ c ∈ host, keep c = true) (hne : host ≠ []) :
    escapeHostsLoop keep isDelim written (host ++ rest) =
      host ++ escapeHostsLoop keep false true rest := by
  induction host generalizing isDelim written with
  | nil => exact absurd rfl hne
  | cons c host ih =>
    rw [List.cons_append, escapeHostsLoop, if_pos (hkeep c (by simp)), List.cons_append]
    congr 1
    cases host with
    | nil => rfl
    | cons d host => exact ih _ _ (fun e he => hkeep e (by simp [he])) (by simp)

theorem escapeHostsLoop_skip {sep rest : Text} (hsep : ∀ c ∈ sep, keep c = false) :
    escapeHostsLoop keep true true (sep ++ rest) = escapeHostsLoop keep true true rest := by
  induction sep with
  | nil => rfl
  | cons c sep ih =>
    rw [List.cons_append, escapeHostsLoop, if_neg (by simp [hsep c])]
    simpa using ih fun d hd => hsep d (by simp [hd])

/-- The separators behind a host become one comma. -/
theorem escapeHostsLoop_sep {sep rest : Text} (hsep : ∀ c ∈ sep, keep c = false) (hne : sep ≠ []) :
    escapeHostsLoop keep false true (sep ++ rest) = ',' :: escapeHostsLoop keep true true rest := by
  obtain ⟨c, sep, rfl⟩ := List.exists_cons_of_ne_nil hne
  rw [List.cons_append, escapeHostsLoop, if_neg (by simp [hsep c])]
  simp only [Bool.not_false, Bool.and_self, if_true]
  rw [escapeHostsLoop_skip fun d hd => hsep d (by simp [hd])]

/-- An accepted list: hosts with separators between them. -/
theorem hosts_of_mem_lang (hlang : text ∈ (customMatchOrRepeatEx x).lang) :
    ∃ host ∈ x.lang, ∃ others : List (Text × Text),
      (∀ p ∈ others, p.1 ≠ [] ∧ (∀ c ∈ p.1, isHostSeparator c = true) ∧ p.2 ∈ x.lang) ∧
        text = host ++ others.flatMap fun p => p.1 ++ p.2 := by
  obtain ⟨host, hhost, tail, htail, rfl⟩ := mem_lang_seq.mp hlang
  obtain ⟨ws, rfl, hws⟩ := mem_lang_star.mp htail
  clear htail hlang
  refine ⟨host, hhost, ?_⟩
  induction ws with
  | nil => exact ⟨[], by simp, rfl⟩
  | cons w ws ih =>
    obtain ⟨others, hothers, hflat⟩ := ih fun v hv => hws v (by simp [hv])
    obtain ⟨sep, hsep, other, hother, rfl⟩ := mem_lang_seq.mp (hws w (by simp))
    have hover : (plus (cls isHostSeparator)).Over fun c => isHostSeparator c = true :=
      ⟨fun c hc => hc, fun c hc => hc⟩
    have hne : sep ≠ [] := by
      rintro rfl
      obtain ⟨a, ha, b, -, hab⟩ := mem_lang_seq.mp hsep
      obtain ⟨c, -, rfl⟩ := mem_lang_cls.mp ha
      simp at hab
    refine ⟨(sep, other) :: others, ?_, ?_⟩
    · intro p hp
      rcases List.mem_cons.mp hp with rfl | hp
      · exact ⟨hne, hover.all_mem hsep, hother⟩
      · exact hothers p hp
    · rw [List.flatten_cons, List.flatMap_cons, List.append_cancel_left hflat]

/-- A list of hosts does not end with a comma. -/
theorem getLast?_hosts_ne_comma (hx : x.Over fun c => keep c = true) (hempty : [] ∉ x.lang)
    (hcomma : keep ',' = false) {host : Text} {others : List Text} (hhost : host ∈ x.lang)
    (hothers : ∀ h ∈ others, h ∈ x.lang) :
    (host ++ others.flatMap fun h => ',' :: h).getLast? ≠ some ',' := by
  induction others generalizing host with
  | nil =>
    intro hlast
    have hkept := hx.all_mem hhost ',' (List.mem_of_getLast? (by simpa using hlast))
    simp [hcomma] at hkept
  | cons h others ih =>
    have hrest := ih (hothers h (by simp)) fun g hg => hothers g (by simp [hg])
    obtain ⟨c, t, ht⟩ := List.exists_cons_of_ne_nil
      (show h ++ others.flatMap (fun g => ',' :: g) ≠ [] by
        intro heq
        exact hempty ((List.append_eq_nil_iff.mp heq).1 ▸ hothers h (by simp)))
    rw [List.flatMap_cons, List.cons_append, ht, List.getLast?_append_cons,
      List.getLast?_cons_cons, ← ht]
    exact hrest

/-- Items with single commas are an accepted list of both kinds. -/
theorem intercalate_mem_lang {items : List Text} (hne : items ≠ [])
    (hmem : ∀ item ∈ items, item ∈ x.lang) :
    [','].intercalate items ∈ (customMatchOrRepeat x).lang ∧
      [','].intercalate items ∈ (customMatchOrRepeatEx x).lang := by
  obtain ⟨host, others, rfl⟩ := List.exists_cons_of_ne_nil hne
  have hothers : ∀ item ∈ others, item ∈ x.lang := fun item hitem => hmem item (by simp [hitem])
  rw [intercalate_comma, List.flatMap_def]
  constructor
  · refine mem_lang_seq.mpr ⟨host, hmem host (by simp), _, mem_lang_star.mpr ⟨_, rfl, ?_⟩, rfl⟩
    intro w hw
    obtain ⟨item, hitem, rfl⟩ := List.mem_map.mp hw
    exact mem_lang_seq.mpr ⟨[','], ⟨',', rfl, rfl⟩, item, hothers item hitem, rfl⟩
  · refine mem_lang_seq.mpr ⟨host, hmem host (by simp), _, mem_lang_star.mpr ⟨_, rfl, ?_⟩, rfl⟩
    intro w hw
    obtain ⟨item, hitem, rfl⟩ := List.mem_map.mp hw
    have hcomma : [','] ∈ (plus (cls fun c => c == ',' || isspace c)).lang :=
      mem_lang_seq.mpr ⟨[','], ⟨',', rfl, rfl⟩, [], mem_lang_star.mpr ⟨[], rfl, by simp⟩, rfl⟩
    exact mem_lang_seq.mpr ⟨[','], hcomma, item, hothers item hitem, rfl⟩

variable (hx : x.Over fun c => keep c = true) (hempty : [] ∉ x.lang)
  (hsep : ∀ c, isHostSeparator c = true → keep c = false)

include hx hempty hsep

/-- The hosts are the words of the list. -/
theorem hostItems_hosts {host : Text} {others : List (Text × Text)} (hhost : host ∈ x.lang)
    (hothers : ∀ p ∈ others, p.1 ≠ [] ∧ (∀ c ∈ p.1, isHostSeparator c = true) ∧ p.2 ∈ x.lang) :
    hostItems (host ++ others.flatMap fun p => p.1 ++ p.2) = host :: others.map Prod.snd := by
  have hword : ∀ item ∈ x.lang, item ≠ [] ∧ ∀ c ∈ item, isHostSeparator c = false := by
    intro item hitem
    refine ⟨fun h => hempty (h ▸ hitem), fun c hc => ?_⟩
    have hkept := hx.all_mem hitem c hc
    cases hc : isHostSeparator c with
    | false => rfl
    | true => simp [hsep c hc] at hkept
  induction others generalizing host with
  | nil =>
    obtain ⟨hne, hfree⟩ := hword host hhost
    simpa [hostItems] using words_of_forall hne hfree
  | cons p others ih =>
    obtain ⟨hgap, hseps, hitem⟩ := hothers p (by simp)
    have hrest := ih hitem fun q hq => hothers q (by simp [hq])
    obtain ⟨hne, hfree⟩ := hword host hhost
    rw [List.flatMap_cons, List.append_assoc, List.map_cons, ← hrest]
    exact words_append hne hfree hgap hseps

/-- The loop writes the hosts with single commas. -/
theorem escapeHostsLoop_hosts {host : Text} {others : List (Text × Text)} (hhost : host ∈ x.lang)
    (hothers : ∀ p ∈ others, p.1 ≠ [] ∧ (∀ c ∈ p.1, isHostSeparator c = true) ∧ p.2 ∈ x.lang)
    (isDelim written : Bool) :
    escapeHostsLoop keep isDelim written (host ++ others.flatMap fun p => p.1 ++ p.2) =
      [','].intercalate (host :: others.map Prod.snd) := by
  have hne : ∀ item ∈ x.lang, item ≠ [] := fun item hitem h => hempty (h ▸ hitem)
  rw [intercalate_comma, List.flatMap_map]
  induction others generalizing host isDelim written with
  | nil =>
    rw [List.flatMap_nil, List.flatMap_nil,
      escapeHostsLoop_kept [] _ _ (hx.all_mem hhost) (hne host hhost)]
    rfl
  | cons p others ih =>
    obtain ⟨hgap, hseps, hitem⟩ := hothers p (by simp)
    have hrest := ih hitem (fun q hq => hothers q (by simp [hq])) true true
    rw [List.flatMap_cons, List.append_assoc,
      escapeHostsLoop_kept _ _ _ (hx.all_mem hhost) (hne host hhost),
      escapeHostsLoop_sep (fun c hc => hsep c (hseps c hc)) hgap, hrest]
    rfl

/-- An accepted list is normalised to its hosts with single commas. -/
theorem escapeHostsWith_hosts {n : ℕ} {hosts : CStr n}
    (hlang : hosts.text ∈ (customMatchOrRepeatEx x).lang) :
    ∃ out, escapeHostsWith keep hosts = some out ∧
      out.text = [','].intercalate (hostItems hosts.text) ∧ hostItems hosts.text ≠ [] ∧
      ∀ item ∈ hostItems hosts.text, item ∈ x.lang := by
  obtain ⟨host, hhost, others, hothers, htext⟩ := hosts_of_mem_lang hlang
  have hitems := hostItems_hosts hx hempty hsep hhost hothers
  have hloop := escapeHostsLoop_hosts hx hempty hsep hhost hothers false false
  rw [← htext] at hitems hloop
  have hmem : ∀ item ∈ hostItems hosts.text, item ∈ x.lang := by
    rw [hitems]
    intro item hitem
    rcases List.mem_cons.mp hitem with rfl | hitem
    · exact hhost
    · obtain ⟨p, hp, rfl⟩ := List.mem_map.mp hitem
      exact (hothers p hp).2.2
  have hlast : ([','].intercalate (hostItems hosts.text)).getLast? ≠ some ',' := by
    rw [hitems, intercalate_comma]
    exact getLast?_hosts_ne_comma hx hempty (hsep ',' rfl) hhost fun item hitem =>
      hmem item (by simp [hitems, hitem])
  have hne : [','].intercalate (hostItems hosts.text) ≠ [] := by
    rw [hitems, intercalate_comma]
    exact List.append_ne_nil_of_left_ne_nil (fun h => hempty (h ▸ hhost)) _
  rw [← hitems] at hloop
  unfold escapeHostsWith
  simp only [hloop, eraseLastComma, if_neg hlast, if_neg hne]
  exact ⟨_, rfl, rfl, by simp [hitems], hmem⟩

/-- The hosts of a list with single commas. -/
theorem hostItems_intercalate {items : List Text} (hne : items ≠ [])
    (hmem : ∀ item ∈ items, item ∈ x.lang) : hostItems ([','].intercalate items) = items := by
  obtain ⟨host, others, rfl⟩ := List.exists_cons_of_ne_nil hne
  have hothers : ∀ p ∈ others.map fun item => ([','], item),
      p.1 ≠ [] ∧ (∀ c ∈ p.1, isHostSeparator c = true) ∧ p.2 ∈ x.lang := by
    intro p hp
    obtain ⟨item, hitem, rfl⟩ := List.mem_map.mp hp
    exact ⟨by simp, by simp [isHostSeparator], hmem item (by simp [hitem])⟩
  have hitems := hostItems_hosts hx hempty hsep (hmem host (by simp)) hothers
  rw [List.flatMap_map, List.map_map] at hitems
  rw [intercalate_comma]
  simpa using hitems

/-- Every accepted list is normalised, if the check accepts its hosts with single commas. -/
theorem escapeHostsWith_normalised {n : ℕ} {hosts : CStr n} {chk : Text → Bool}
    (hlang : hosts.text ∈ (customMatchOrRepeatEx x).lang)
    (hchk : chk ([','].intercalate (hostItems hosts.text)) = true) :
    ∃ out, Normalised (escapeHostsWith keep) chk hosts out := by
  obtain ⟨out, hout, htext, hne, hmem⟩ := escapeHostsWith_hosts hx hempty hsep hlang
  have hagain : out.text ∈ (customMatchOrRepeatEx x).lang := by
    rw [htext]
    exact (intercalate_mem_lang hne hmem).2
  obtain ⟨out', hout', htext', -, -⟩ := escapeHostsWith_hosts hx hempty hsep hagain
  have hsame : out' = out := by
    apply CStr.ext
    rw [htext', htext, hostItems_intercalate hx hempty hsep hne hmem]
  have hcomma : ∀ item ∈ hostItems hosts.text, ',' ∉ item := by
    intro item hitem hc
    have hkept := hx.all_mem (hmem item hitem) ',' hc
    simp [hsep ',' rfl] at hkept
  refine ⟨out, hout, ?_, by rw [htext, hchk], ?_, by rw [hout', hsame]⟩
  · have hlen := length_escapeHostsLoop_le keep false false hosts.text
    unfold escapeHostsWith at hout
    dsimp only at hout
    split at hout
    · simp at hout
    · rw [← congrArg CStr.text (Option.some.inj hout)]
      exact (eraseLastComma_sublist _).length_le.trans hlen
  · rw [htext, List.splitOn_intercalate ',' hcomma hne]

end Lists

/-! ### The two functions -/

/-- Neither function keeps a separator of hosts. -/
theorem isDelim_of_separator {mark : Char}
    (hmark : mark ≠ ',' ∧ isspace mark = false) (c : Char) (hc : (c == ',' || isspace c) = true) :
    (c.isDigit || c == '/' || c == '.' || c == mark) = false := by
  have hne : c ≠ mark := by
    rintro rfl
    simp [hmark] at hc
  rcases Bool.or_eq_true_iff.mp hc with hc | hc
  · rw [beq_iff_eq] at hc
    subst hc
    simp [hmark.1.symm]
  · have hdigit : c.isDigit = false := by
      cases hdigit : c.isDigit with
      | false => rfl
      | true => simp [isspace_of_isDigit hdigit] at hc
    have hmarks : c ∉ ['/', '.'] := not_mem_of_all rfl hc
    simp only [List.mem_cons, List.not_mem_nil, or_false, not_or] at hmarks
    simp [hdigit, hmarks, hne]

/-- `escapeHosts` on the hosts of a task. -/
theorem escapeHosts_normalised {n : ℕ} {hosts : CStr n} (hchk : chkHostsExt hosts.text = true) :
    ∃ out, Normalised escapeHosts chkHosts hosts out := by
  have hlang := chkHostsExt_iff.mp hchk
  have hx : customIpRangePattern.Over fun c =>
      (c.isDigit || c == '/' || c == '.' || c == '-') = true :=
    over_customIpRangePattern (fun c hc => by simp [hc]) rfl rfl rfl
  have hempty : [] ∉ customIpRangePattern.lang := by
    rw [← Regex.accepts_iff]
    decide +kernel
  have hsep : ∀ c, isHostSeparator c = true →
      (c.isDigit || c == '/' || c == '.' || c == '-') = false := isDelim_of_separator (by decide)
  obtain ⟨-, -, -, hne, hmem⟩ := escapeHostsWith_hosts hx hempty hsep hlang
  exact escapeHostsWith_normalised hx hempty hsep hlang
    (chkHosts_iff.mpr (intercalate_mem_lang hne hmem).1)

/-- `escapeHydraHosts` on the hosts of a hydra task. -/
theorem escapeHydraHosts_normalised {n : ℕ} {type : ℤ} {hosts : CStr n}
    (hchk : chkHydraHosts type hosts.text = true) :
    ∃ out, Normalised escapeHydraHosts (chkHydraHostsIntern type) hosts out := by
  have hdigit : ∀ c : Char, c.isDigit = true →
      (c.isDigit || c == '/' || c == '.' || c == ':') = true := fun c hc => by simp [hc]
  have hsep : ∀ c, isHostSeparator c = true →
      (c.isDigit || c == '/' || c == '.' || c == ':') = false := isDelim_of_separator (by decide)
  unfold chkHydraHosts at hchk
  split at hchk
  · rename_i hlist
    have hx := over_customHostOrPort (over_customIpPattern hdigit rfl) hdigit rfl
    have hempty : [] ∉ (customHostOrPort customIpPattern).lang := by
      rw [← Regex.accepts_iff]
      decide +kernel
    rw [customWholeMatchIpList, regmatch_wholeMatch] at hchk
    obtain ⟨-, -, -, hne, hmem⟩ := escapeHostsWith_hosts hx hempty hsep hchk
    refine escapeHostsWith_normalised hx hempty hsep hchk ?_
    rw [chkHydraHostsIntern, if_pos hlist, customWholeMatchIpListIntern, regmatch_wholeMatch]
    exact (intercalate_mem_lang hne hmem).1
  · rename_i hlist
    split at hchk
    swap
    · simp at hchk
    rename_i hblock
    have hx := over_customHostOrPort (over_customIpBlock hdigit rfl rfl) hdigit rfl
    have hempty : [] ∉ (customHostOrPort customIpBlock).lang := by
      rw [← Regex.accepts_iff]
      decide +kernel
    have hwhole := hchk
    rw [customWholeMatchIpBlock, regmatch_wholeMatch] at hchk
    -- a block is the list of itself
    have hne : [hosts.text] ≠ [] := by simp
    have hmem : ∀ item ∈ [hosts.text], item ∈ (customHostOrPort customIpBlock).lang := by
      simpa using hchk
    have hsingle := (intercalate_mem_lang hne hmem).2
    have hitems := hostItems_intercalate hx hempty hsep hne hmem
    rw [List.intercalate_singleton] at hsingle hitems
    refine escapeHostsWith_normalised hx hempty hsep hsingle ?_
    rw [hitems, List.intercalate_singleton, chkHydraHostsIntern, if_neg hlist, if_pos hblock]
    exact hwhole

/-! ### One host on each line -/

/-- The loop of `convIPsByLine`, with the room that is left. -/
def convIPsByLineLoop : ℕ → Text → Option Text
  | _, [] => some []
  | 0, _ :: _ => none
  | room + 1, c :: ips =>
      if c.isDigit || c == '.' || c == ':' then (convIPsByLineLoop room ips).map (c :: ·)
      else if c == ',' then (convIPsByLineLoop room ips).map ('\n' :: ·)
      else none

theorem convIPsByLineLoop_eq (room : ℕ) (ips : Text) :
    convIPsByLineLoop room ips =
      if ips.length ≤ room ∧
          ips.all (fun c => c.isDigit || c == '.' || c == ':' || c == ',') = true then
        some (ips.map fun c => if c = ',' then '\n' else c)
      else none := by
  induction ips generalizing room with
  | nil => simp [convIPsByLineLoop]
  | cons c ips ih =>
    cases room with
    | zero => simp [convIPsByLineLoop]
    | succ room =>
      rw [convIPsByLineLoop, ih]
      by_cases hcomma : c = ','
      · subst hcomma
        simp only [List.all_cons, List.length_cons, Nat.add_le_add_iff_right, List.map_cons]
        split <;> simp_all
      · by_cases hkept : (c.isDigit || c == '.' || c == ':') = true
        · rw [if_pos hkept]
          simp only [List.all_cons, List.length_cons, Nat.add_le_add_iff_right, List.map_cons,
            hkept, Bool.true_or, Bool.true_and, if_neg hcomma]
          split <;> simp
        · rw [if_neg hkept, if_neg (by simpa using hcomma), if_neg]
          simp only [Bool.not_eq_true] at hkept
          simp [hkept, hcomma]

/-- `convIPsByLine` is its loop, followed by the last line break. -/
theorem convIPsByLine_eq_loop (ips : Text) (maxlen : ℕ) :
    convIPsByLine ips maxlen =
      if ips = [] then none
      else (convIPsByLineLoop (maxlen - 2) ips).map fun cache => cache ++ ['\n'] := by
  rw [convIPsByLine, convIPsByLineLoop_eq]
  by_cases hne : ips = []
  · simp [hne]
  · have hpos : 0 < ips.length := List.length_pos_iff.mpr hne
    simp only [hpos, true_and, if_neg hne]
    split <;> rfl

/-- Line breaks for the commas of a list, and one more at its end. -/
theorem map_intercalate_comma {items : List Text} (hne : items ≠ [])
    (hcomma : ∀ item ∈ items, ',' ∉ item) :
    (([','].intercalate items).map fun c => if c = ',' then '\n' else c) ++ ['\n'] =
      (items.map fun item => item ++ ['\n']).flatten := by
  have hsame : ∀ item : Text, ',' ∉ item →
      (item.map fun c => if c = ',' then '\n' else c) = item := by
    intro item hitem
    conv_rhs => rw [← List.map_id item]
    refine List.map_congr_left fun c hc => if_neg ?_
    rintro rfl
    exact hitem hc
  obtain ⟨host, others, rfl⟩ := List.exists_cons_of_ne_nil hne
  rw [intercalate_comma]
  clear hne
  induction others generalizing host with
  | nil => simp [hsame host (hcomma host (by simp))]
  | cons other others ih =>
    have hrest := ih other fun item hitem => hcomma item (List.mem_cons_of_mem _ hitem)
    rw [List.map_append, hsame host (hcomma host (by simp)), List.map_cons, List.flatten_cons,
      ← hrest]
    simp

/-- An accepted list that fits has one host on each line. -/
theorem convIPsByLine_lines {ips : Text} {maxlen : ℕ} (hchk : chkHydraHostsIntern 0 ips = true)
    (hfits : ips.length + 2 ≤ maxlen) :
    ∃ cache, convIPsByLine ips maxlen = some cache ∧ 0 < cache.length ∧
      cache = ((ips.splitOn ',').map fun item => item ++ ['\n']).flatten ∧
      ∀ item ∈ ips.splitOn ',', item ≠ [] ∧ '\n' ∉ item := by
  have hchars : ∀ c ∈ ips, (c.isDigit || c == '.' || c == ':' || c == ',') = true := by
    have hover : (customMatchOrRepeat (customHostOrPort customIpPattern)).Over fun c =>
        (c.isDigit || c == '.' || c == ':' || c == ',') = true :=
      over_customMatchOrRepeat (over_customHostOrPort
        (over_customIpPattern (fun c hc => by simp [hc]) rfl) (fun c hc => by simp [hc]) rfl) rfl
    exact hover.all_mem (regmatch_wholeMatch.mp hchk)
  have hnocomma : (customHostOrPort customIpPattern).Over fun c => c ≠ ',' := by
    have hdigit : ∀ c : Char, c.isDigit = true → c ≠ ',' := by
      rintro c hc rfl
      exact absurd hc (by decide)
    exact over_customHostOrPort (over_customIpPattern hdigit (by decide)) hdigit (by decide)
  obtain ⟨hne, hmem, hlist⟩ :=
    tokens_of_mem_customMatchOrRepeat hnocomma (regmatch_wholeMatch.mp hchk)
  have hcomma : ∀ item ∈ ips.splitOn ',', ',' ∉ item := fun item hitem hc =>
    hnocomma.all_mem (hmem item hitem) ',' hc rfl
  have hempty : [] ∉ (customHostOrPort customIpPattern).lang := by
    rw [← Regex.accepts_iff]
    decide +kernel
  have hlines := map_intercalate_comma hne hcomma
  rw [hlist] at hlines
  have hpos : 0 < ips.length := by
    obtain ⟨item, items, hitems⟩ := List.exists_cons_of_ne_nil hne
    have hitem : item ≠ [] := fun h => hempty (h ▸ hmem item (by simp [hitems]))
    rw [← hlist, hitems, intercalate_comma, List.length_append]
    have hitemPos := List.length_pos_iff.mpr hitem
    omega
  refine ⟨_, if_pos ⟨hpos, by omega, List.all_eq_true.mpr hchars⟩, by simp, hlines, ?_⟩
  intro item hitem
  refine ⟨fun h => hempty (h ▸ hmem item hitem), fun hnewline => ?_⟩
  have hsub := (of_mem_splitOn hitem).2 hnewline
  exact absurd (hchars _ hsub) (by decide)

/-- **Hosts are normalised without a change of meaning**, by the client for both kinds of tasks and
by the daemon for the list of a hydra task. -/
theorem hosts_normalised :
    (∀ {n : ℕ} (hosts : CStr n), chkHostsExt hosts.text = true →
      ∃ out, Normalised escapeHosts chkHosts hosts out) ∧
    (∀ {n : ℕ} (type : ℤ) (hosts : CStr n), type = 0 ∨ type = 1 →
      chkHydraHosts type hosts.text = true →
      ∃ out, Normalised escapeHydraHosts (chkHydraHostsIntern type) hosts out) ∧
    ∀ (ips : Text) (maxlen : ℕ), chkHydraHostsIntern 0 ips = true → ips.length + 2 ≤ maxlen →
      ∃ cache, convIPsByLine ips maxlen = some cache ∧ 0 < cache.length ∧
        cache = ((ips.splitOn ',').map fun item => item ++ ['\n']).flatten ∧
        ∀ item ∈ ips.splitOn ',', item ≠ [] ∧ '\n' ∉ item :=
  ⟨fun _ hchk => escapeHosts_normalised hchk, fun _ _ _ hchk => escapeHydraHosts_normalised hchk,
    fun _ _ hchk hfits => convIPsByLine_lines hchk hfits⟩

/-- Two hosts with a comma and blanks between them, and a list of two hosts with a port. -/
theorem hosts_normalised_sample :
    (∃ out, Normalised escapeHosts chkHosts
      (⟨"10.0.0.1/24 ,\t 10.0.0.2-9".toList, by decide +kernel, by decide +kernel⟩ :
        CStr maxMemListSize) out) ∧
    (∃ out, Normalised escapeHydraHosts (chkHydraHostsIntern 1)
      (⟨"10.0.0.0/24:22".toList, by decide +kernel, by decide +kernel⟩ : CStr maxMemListSize)
        out) ∧
    ∃ cache, convIPsByLine "10.0.0.1:22,10.0.0.2".toList 32 = some cache ∧ 0 < cache.length ∧
      cache = (("10.0.0.1:22,10.0.0.2".toList.splitOn ',').map fun item =>
        item ++ ['\n']).flatten ∧
      ∀ item ∈ "10.0.0.1:22,10.0.0.2".toList.splitOn ',', item ≠ [] ∧ '\n' ∉ item :=
  ⟨hosts_normalised.1 _ (by decide +kernel),
    hosts_normalised.2.1 1 _ (Or.inr rfl) (by decide +kernel),
    hosts_normalised.2.2 _ 32 (by decide +kernel) (by decide +kernel)⟩

end OpenvasTool
