import OpenvasTool.Gvm.Download
import OpenvasTool.Support.Split

/-!
# The results on the web page

The page splits the result file into lines and the lines into fields, and drops
empty lines and fields. A result is shown with its seven fields exactly when none
of them is empty or contains a separator.
-/

namespace OpenvasTool

open Posix Support

/-- The lines of the result file with seven fields, `host|name|threat|severity|port|cvss|create_time`. -/
def nvtRows (ctx : Text) : List (List Text) :=
  ((splitNoEmpty '\n' ctx).map (splitNoEmpty '|')).filter fun nvt => nvt.length == 7

/-- `readNvtResult`: the numbered results, or a mark that there are none. The text of a row is
never empty. -/
def readNvtResult (file : Option Text) : Text :=
  let rows := nvtRows (file.getD [])
  let res := (rows.zipIdx 1).flatMap fun row =>
    "(".toList ++ decimal row.2 ++ ")".toList ++ ['|'].intercalate row.1 ++ "<br/>".toList
  if res.isEmpty then "空<br/>".toList else res

/-- A field that the page can tell from the separators. -/
def ShownField (field : Text) : Prop := field ≠ [] ∧ '|' ∉ field ∧ '\n' ∉ field

theorem shownField_of_mem_nvtRows {ctx field : Text} {row : List Text} (hrow : row ∈ nvtRows ctx)
    (hfield : field ∈ row) : ShownField field := by
  obtain ⟨hmem, -⟩ := List.mem_filter.mp hrow
  obtain ⟨line, hline, rfl⟩ := List.mem_map.mp hmem
  obtain ⟨hne, hbar, hsub⟩ := of_mem_splitNoEmpty hfield
  exact ⟨hne, hbar, fun hnl => (of_mem_splitNoEmpty hline).2.1 (hsub hnl)⟩

theorem splitNoEmpty_nvtBody {nvt : ResultNvtInfo} (h : ∀ field ∈ nvtFields nvt, ShownField field) :
    splitNoEmpty '|' (nvtBody nvt) = nvtFields nvt := by
  rw [nvtBody, splitNoEmpty_cons_sep]
  exact splitNoEmpty_lines fun field hfield => ⟨(h field hfield).1, (h field hfield).2.1⟩

/-- The lines of results with proper fields are read back. -/
theorem nvtRows_lines {nvts : List ResultNvtInfo}
    (h : ∀ nvt ∈ nvts, ∀ field ∈ nvtFields nvt, ShownField field) :
    nvtRows (nvts.map nvtLine).flatten = nvts.map nvtFields := by
  have hbodies : ∀ body ∈ nvts.map nvtBody, body ≠ [] ∧ '\n' ∉ body := by
    intro body hbody
    obtain ⟨nvt, hnvt, rfl⟩ := List.mem_map.mp hbody
    refine ⟨by simp [nvtBody], newline_not_mem_nvtBody_iff.mpr fun field hfield => ?_⟩
    exact (h nvt hnvt field hfield).2.2
  have hfields : (nvts.map nvtBody).map (splitNoEmpty '|') = nvts.map nvtFields := by
    rw [List.map_map]
    exact List.map_congr_left fun nvt hnvt => splitNoEmpty_nvtBody (h nvt hnvt)
  rw [nvtRows, map_nvtLine, splitNoEmpty_lines hbodies, hfields, List.filter_eq_self]
  intro row hrow
  obtain ⟨nvt, -, rfl⟩ := List.mem_map.mp hrow
  rfl

/-- **The results are shown** as they are stored exactly when no field is empty or contains a
separator. -/
theorem resultsShown_iff {capacity : ℕ} {results : ListQueue ResultNvtInfo} {outbuf : Text}
    (h : printNvts capacity results = some outbuf) :
    nvtRows outbuf = results.items.map nvtFields ↔
      ∀ nvt ∈ results.items, ∀ field ∈ nvtFields nvt, ShownField field := by
  rw [printNvts_eq h]
  constructor
  · intro hrows nvt hnvt field hfield
    have hrow : nvtFields nvt ∈ nvtRows (results.items.map nvtLine).flatten := by
      rw [hrows]
      exact List.mem_map_of_mem hnvt
    exact shownField_of_mem_nvtRows hrow hfield
  · exact nvtRows_lines

/-- A result of this name, with all other elements that are read. -/
def sampleNamedNode (name : String) : Xml.Node :=
  .element "result".toList [("id".toList, sampleUuid '1')]
    [textElement "name" name, textElement "threat" "High", textElement "severity" "7.5",
      textElement "port" "23/tcp", textElement "host" "10.0.0.1",
      textElement "creation_time" "2024-05-01T08:30:00Z",
      .element "nvt".toList [] [textElement "cvss_base" "7.5"]]

/-- What is stored of the result. -/
def sampleNamed (name : String) : ResultNvtInfo :=
  (parseNvt sampleResultEnv (sampleNamedNode name)).getD {}

/-- The result `Telnet` is shown. -/
theorem resultsShown_iff_sampleNamed :
    nvtRows (nvtLine (sampleNamed "Telnet")) = [nvtFields (sampleNamed "Telnet")] := by
  have hprint : printNvts maxCacheSize ⟨[sampleNamed "Telnet"], 1⟩ =
      some (nvtLine (sampleNamed "Telnet")) := by decide +kernel
  have hfields : (nvtFields (sampleNamed "Telnet")).all (fun field =>
      !field.isEmpty && !field.contains '|' && !field.contains '\n') = true := by decide +kernel
  refine (resultsShown_iff hprint).mpr fun nvt hnvt field hfield => ?_
  obtain rfl := List.mem_singleton.mp hnvt
  simpa [ShownField, and_assoc] using List.all_eq_true.mp hfields field hfield

/-- A stored result with a separator in its name is not shown. -/
theorem not_resultsShown_sampleNamed :
    ¬ ∀ (results : ListQueue ResultNvtInfo) (outbuf : Text),
      (∀ nvt ∈ results.items, ∃ env cur, parseNvt env cur = some nvt) →
        printNvts maxCacheSize results = some outbuf →
          nvtRows outbuf = results.items.map nvtFields := by
  intro hclaim
  have hstored : parseNvt sampleResultEnv (sampleNamedNode "Telnet | rsh") =
      some (sampleNamed "Telnet | rsh") := by decide +kernel
  have hrows := hclaim ⟨[sampleNamed "Telnet | rsh"], 1⟩ (nvtLine (sampleNamed "Telnet | rsh"))
    (fun nvt hnvt => ⟨_, _, List.mem_singleton.mp hnvt ▸ hstored⟩) (by decide +kernel)
  exact absurd hrows (by decide +kernel)

end OpenvasTool
