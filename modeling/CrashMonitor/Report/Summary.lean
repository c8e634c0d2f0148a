import CrashMonitor.Report.Document
import CrashMonitor.Session.Record

/-!
# The analyze summary

`crash_monitor analyze` (`cli/analyze.rs`): the lines `write_summary` prints for
a loaded report. Texts of the report go through `escape_terminal`, except the
signal and the fault address of a crash in the first line.
-/

namespace CrashMonitor.Report

open Lib Lib.Decode Lib.CompactText EventLoop List

/-! ## Escaping -/

/-- `char::is_control`. -/
def isControl (c : Char) : Bool := c.toNat < 0x20 || (0x7f ≤ c.toNat && c.toNat < 0xa0)

/-- `{:02x}`. -/
def twoHexDigits (n : Nat) : Text :=
  let digits := Nat.toDigits 16 n
  List.replicate (2 - digits.length) '0' ++ digits

def escapeControl (c : Char) : Text :=
  if isControl c = false then [c]
  else if c = '\n' then ['\\', 'n']
  else if c = '\r' then ['\\', 'r']
  else if c = '\t' then ['\\', 't']
  else if c.toNat ≤ 0xff then '\\' :: 'x' :: twoHexDigits c.toNat
  else '\\' :: 'u' :: '\x7b' :: (Nat.toDigits 16 c.toNat ++ ['\x7d'])

def escapeTerminal (value : String) : String := .ofList (value.toList.flatMap escapeControl)

/-! ## Lines -/

/-- The pieces of a printed line, without its newline. -/
abbrev Line := List String

def Line.text (line : Line) : Text := line.flatMap String.toList

def decimal (n : Nat) : String := .ofList (writeNat n)

def signedDecimal : Int → String
  | .ofNat n => decimal n
  | .negSucc n => "-" ++ decimal (n + 1)

/-- `{:02}`. -/
def twoDigits (n : Nat) : String :=
  .ofList (List.replicate (2 - (writeNat n).length) '0' ++ writeNat n)

/-- `{:<width}`. -/
def padded (width : Nat) (value : String) : String :=
  .ofList (value.toList ++ List.replicate (width - value.toList.length) ' ')

def formatDuration (secs : Nat) : Line :=
  let h := secs / 3600
  let m := secs % 3600 / 60
  let s := secs % 60
  if h > 0 then [decimal h, "h ", twoDigits m, "m"]
  else if m > 0 then [decimal m, "m ", twoDigits s, "s"]
  else [decimal s, "s"]

section

-- How serde_json writes a number.
variable (numberText : Rat → String)

mutual

/-- `Value::to_string`: compact, without spaces. -/
def renderJson : Json → Text
  | .null => ['n', 'u', 'l', 'l']
  | .bool true => ['t', 'r', 'u', 'e']
  | .bool false => ['f', 'a', 'l', 's', 'e']
  | .number value => (numberText value).toList
  | .string text => Session.quoted text
  | .array values => '[' :: (Session.commaSeparated (renderValues values) ++ [']'])
  | .object members => '\x7b' :: (Session.commaSeparated (renderMembers members) ++ ['\x7d'])

def renderValues : List Json → List Text
  | [] => []
  | value :: values => renderJson value :: renderValues values

def renderMembers : List (String × Json) → List Text
  | [] => []
  | (key, value) :: members => Session.member key (renderJson value) :: renderMembers members

end

def renderJsonField : Option Json → String
  | none => "<missing>"
  | some (.string value) => escapeTerminal value
  | some value => escapeTerminal (.ofList (renderJson numberText value))

/-! ## The parts of the summary -/

/-- `(PID .., ..)` at the end of the first line. -/
def processPart (header : ReportHeader) : Line :=
  ["  (PID ", decimal header.pid, ", ", escapeTerminal header.process, ")"]

variable (report : CrashReport)

def headerSummary : Line :=
  let h := report.header
  match h.reportType with
  | .crash =>
    let signal := (report.exception.map (·.signal)).getD "unknown signal"
    let fault := (report.exception.bind (·.faultAddress)).getD "not applicable"
    ["Crash Report: ", signal, " at ", fault] ++ processPart h
  | .anr =>
    ["ANR Report: unresponsive for ", decimal (h.hangDurationMs.getD 0), "ms"] ++ processPart h
  | .oom =>
    ["Possible OOM Report: SIGKILL observed without confirming memory-pressure evidence"] ++
      processPart h
  | .snapshot => ["Snapshot Report"] ++ processPart h
  | .exitFailure =>
    match report.termination with
    | some (.exited exitCode runtimeMs) =>
      ["Exit Failure Report: exit code ", signedDecimal exitCode, " after ",
        decimal runtimeMs, "ms"] ++ processPart h
    | _ => ["Exit Failure Report"] ++ processPart h
  | .signalFailure =>
    match report.termination with
    | some (.signaled signal coreDumped runtimeMs) =>
      let core := if coreDumped then ", core dumped" else ""
      let cause := if signal = 9 then ", cause unknown (SIGKILL is not proof of OOM)" else ""
      ["Signal Failure Report: signal ", signedDecimal signal, core, cause, " after ",
        decimal runtimeMs, "ms"] ++ processPart h
    | _ => ["Signal Failure Report"] ++ processPart h

def printHeader : List Line :=
  [headerSummary report, ["Time: ", escapeTerminal report.header.timestamp]]

def annotationPart (entry : String × Json) : Line :=
  [escapeTerminal entry.1, "=", renderJsonField numberText (some entry.2)]

/-- `join(" | ")`. -/
def joinParts : List Line → Line
  | [] => []
  | [part] => part
  | part :: rest => part ++ " | " :: joinParts rest

def producerLine (ctx : CrashContextReport) : Line :=
  match ctx.sessionId with
  | some sessionId =>
    ["Producer session: ", escapeTerminal sessionId, " (start_ns: ",
      (ctx.sessionStartNs.map decimal).getD "unknown", ", heartbeat: ",
      decimal ctx.heartbeatCounter, ")"]
  | none => ["Producer heartbeat: ", decimal ctx.heartbeatCounter]

def printCrashContext : List Line :=
  match report.crashContext with
  | none => [["Context: <missing>"]]
  | some ctx =>
    if ctx.annotations.entries.isEmpty then
      [producerLine ctx, ["Context annotations: <missing>"]]
    else
      [producerLine ctx,
        "Context: " :: joinParts (ctx.annotations.entries.map (annotationPart numberText))]

def printSession : List Line :=
  match report.session with
  | none => []
  | some session =>
    ["Session: " :: formatDuration session.durationS ++ [" (id: ", escapeTerminal session.id, ")"]]

def printFingerprint : List Line :=
  match report.fingerprint with
  | none => []
  | some fp => [["Fingerprint: ", escapeTerminal fp]]

def printFeedback : List Line :=
  match report.userFeedback with
  | none => []
  | some feedback => [["User feedback: ", renderJsonField numberText (member? "comment" feedback)]]

def printException : List Line :=
  match report.exception with
  | none => []
  | some exc =>
    [["Exception:"], ["  Type:          ", escapeTerminal exc.excType],
      ["  Code:          ", escapeTerminal exc.code],
      ["  Subcode:       ", escapeTerminal exc.subcode],
      ["  Signal:        ", escapeTerminal exc.signal]] ++
    (exc.faultAddress.map fun fault => ["  Fault address: ", escapeTerminal fault]).toList ++
    (if exc.signalIsApproximate then [["  Signal mapping: approximate"]] else []) ++
    [[]]

def maxFrames : Nat := 20

def maxBreadcrumbs : Nat := 10

def frameLine (i : Nat) (frame : BacktraceFrame) : Line :=
  let offsetStr := (frame.offset.map fun o => [" + ", escapeTerminal o]).getD []
  let imageStr := (frame.image.map fun img =>
    ["  [", escapeTerminal (lastSegment img), "]"]).getD []
  let sourceStr := match frame.file, frame.line with
    | some f, some l => ["  ", escapeTerminal (lastSegment f), ":", decimal l]
    | _, _ => []
  ["  #", padded 3 (decimal i), " ", escapeTerminal (frame.symbol.getD frame.address)] ++
    offsetStr ++ imageStr ++ sourceStr

/-- `threads.iter().find(|t| t.crashed).or_else(|| threads.first())`. -/
def shownThread : Option ThreadReport := (report.threads.find? (·.crashed)).or report.threads.head?

def printBacktrace : List Line :=
  match shownThread report with
  | none => [["(no threads in report)"]]
  | some thread =>
    let label := if thread.crashed then " [CRASHED]" else ""
    let total := thread.backtrace.length
    [["Thread ", decimal thread.index, " (", escapeTerminal (thread.name.getD "unnamed"), ")",
      label, ":"]] ++
    (if thread.backtrace.isEmpty then [["  (no backtrace)"]] else []) ++
    ((thread.backtrace.take maxFrames).zipIdx.map fun (frame, i) => frameLine i frame) ++
    (if total > maxFrames then [["  ... (", decimal (total - maxFrames), " more frames)"]]
      else []) ++
    [[]]

def breadcrumbLine (crumb : BreadcrumbReport) : Line :=
  let cat := escapeTerminal crumb.cat
  let file := escapeTerminal crumb.file
  let msg := escapeTerminal crumb.msg
  if file.toList.isEmpty then ["  [", padded 8 cat, "] ", msg]
  else ["  [", padded 8 cat, "] ", file, ":", decimal crumb.line, "  ", msg]

def printBreadcrumbs : List Line :=
  match report.breadcrumbs with
  | none => []
  | some crumbs =>
    if crumbs.isEmpty then []
    else
      [["Recent breadcrumbs:"]] ++
        ((crumbs.drop (crumbs.length - maxBreadcrumbs)).map breadcrumbLine) ++ [[]]

/-- The members of an object (`as_object`). -/
def pluginEntries : Option Json → List (String × Json)
  | some (.object members) => members
  | _ => []

def statusCount (plugins : List (String × Json)) (status : String) : Nat :=
  plugins.countP fun plugin => (member? "status" plugin.2).bind Decode.text = some status

def diagnosticsSummary : Option Line := report.diagnostics.map fun diag =>
    let totalMs := ((member? "pipeline_duration_ms" diag).bind (unsigned 64)).getD 0
    let plugins := pluginEntries (member? "plugins" diag)
    ["Pipeline: ", decimal (statusCount plugins "ok"), " ok, ",
      decimal (statusCount plugins "error"), " error, ",
      decimal (statusCount plugins "timed_out"), " timed out, ",
      decimal (statusCount plugins "skipped"), " skipped  (", decimal totalMs, "ms total)"]

def printDiagnostics : List Line := (diagnosticsSummary report).toList

/-- `write_summary`: the lines it prints, each closed by a newline. -/
def writeSummary : List Line :=
  printHeader report ++ printCrashContext numberText report ++ printSession report ++
    printFingerprint report ++ printFeedback numberText report ++ [[]] ++
    printException report ++ printBacktrace report ++ printBreadcrumbs report ++
    printDiagnostics report

end

/-- `overlay_manifest_diagnostics`, with the final diagnostics of the manifest
beside the report if they apply to it. -/
def overlayManifestDiagnostics (finalDiagnostics : Option Json) (report : CrashReport) :
    CrashReport :=
  match finalDiagnostics with
  | none => report
  | some diagnostics => { report with diagnostics := some diagnostics }

/-! ## Clean texts -/

/-- Without a control character. -/
def CleanText (text : Text) : Prop := ∀ c ∈ text, isControl c = false

def Clean (text : String) : Prop := CleanText text.toList

/-- Nothing in the lines can act on a terminal. -/
def NoInjection (lines : List Line) : Prop := ∀ line ∈ lines, CleanText line.text

instance (text : Text) : Decidable (CleanText text) :=
  List.decidableBAll (fun c => isControl c = false) text

instance (text : String) : Decidable (Clean text) :=
  inferInstanceAs (Decidable (CleanText text.toList))

instance (lines : List Line) : Decidable (NoInjection lines) :=
  List.decidableBAll (fun line : Line => CleanText line.text) lines

@[simp] theorem cleanText_nil : CleanText [] := by
  intro c hc
  cases hc

@[simp] theorem cleanText_cons (c : Char) (text : Text) :
    CleanText (c :: text) ↔ isControl c = false ∧ CleanText text := forall_mem_cons

@[simp] theorem cleanText_append (a b : Text) : CleanText (a ++ b) ↔ CleanText a ∧ CleanText b :=
  forall_mem_append

@[simp] theorem clean_ofList (text : Text) : Clean (.ofList text) ↔ CleanText text := by
  rw [Clean, String.toList_ofList]

@[simp] theorem clean_append (a b : String) : Clean (a ++ b) ↔ Clean a ∧ Clean b := by
  rw [Clean, String.toList_append, cleanText_append]
  rfl

/-- A line whose pieces are clean. -/
def CleanLine (line : Line) : Prop := ∀ piece ∈ line, Clean piece

instance (line : Line) : Decidable (CleanLine line) :=
  List.decidableBAll (fun piece => Clean piece) line

@[simp] theorem cleanLine_nil : CleanLine [] := by
  intro piece hpiece
  cases hpiece

@[simp] theorem cleanLine_cons (piece : String) (line : Line) :
    CleanLine (piece :: line) ↔ Clean piece ∧ CleanLine line := forall_mem_cons

@[simp] theorem cleanLine_append (a b : Line) : CleanLine (a ++ b) ↔ CleanLine a ∧ CleanLine b :=
  forall_mem_append

theorem cleanText_line {line} : CleanText line.text ↔ CleanLine line := by
  induction line with
  | nil => simp [Line.text]
  | cons piece line ih =>
    have hcons : Line.text (piece :: line) = piece.toList ++ Line.text line := rfl
    rw [hcons, cleanText_append, ih, cleanLine_cons]
    rfl

theorem isControl_digitChar {n} (h : n < 16) : isControl (Nat.digitChar n) = false := by
  revert n
  decide

theorem cleanText_toDigits {base} (hlo : 1 < base) (hhi : base ≤ 16) {n} :
    CleanText (Nat.toDigits base n) := by
  induction n using Nat.strong_induction_on with
  | _ n ih =>
    rw [Nat.toDigits_eq_if hlo]
    split
    next hlt => simp [isControl_digitChar (show n < 16 by omega)]
    next hge =>
      have hmod : n % base < 16 := by
        have := Nat.mod_lt n (show base > 0 by omega)
        omega
      simp [ih (n / base) (Nat.div_lt_self (by omega) hlo), isControl_digitChar hmod]

@[simp] theorem clean_decimal (n : Nat) : Clean (decimal n) := by
  rw [decimal, clean_ofList]
  exact cleanText_toDigits (by decide) (by decide)

theorem cleanText_replicate {n c} (h : isControl c = false) : CleanText (.replicate n c) := by
  intro d hd
  rw [eq_of_mem_replicate hd]
  exact h

theorem cleanText_escapeControl {c} : CleanText (escapeControl c) := by
  unfold escapeControl
  split_ifs with hplain hline hreturn htab hsmall
  · simpa using hplain
  · decide
  · decide
  · decide
  · have hdigits : CleanText (Nat.toDigits 16 c.toNat) := cleanText_toDigits (by decide) (by decide)
    simp only [cleanText_cons, twoHexDigits, cleanText_append, hdigits,
      cleanText_replicate (show isControl '0' = false by decide), and_true]
    decide
  · have hdigits : CleanText (Nat.toDigits 16 c.toNat) := cleanText_toDigits (by decide) (by decide)
    simp only [cleanText_cons, cleanText_append, hdigits, cleanText_nil, and_true, true_and]
    decide

/-- What `escape_terminal` is for. -/
@[simp] theorem clean_escapeTerminal (value : String) : Clean (escapeTerminal value) := by
  rw [escapeTerminal, clean_ofList]
  intro c hc
  obtain ⟨d, -, hd⟩ := mem_flatMap.mp hc
  exact cleanText_escapeControl c hd

@[simp] theorem clean_signedDecimal (n : Int) : Clean (signedDecimal n) := by
  cases n with
  | ofNat n => exact clean_decimal n
  | negSucc n =>
    rw [signedDecimal, clean_append]
    exact ⟨by decide, clean_decimal (n + 1)⟩

@[simp] theorem clean_twoDigits (n : Nat) : Clean (twoDigits n) := by
  rw [twoDigits, clean_ofList, cleanText_append]
  exact ⟨cleanText_replicate (by decide), cleanText_toDigits (by decide) (by decide)⟩

theorem clean_padded {value} (h : Clean value) (width : Nat) : Clean (padded width value) := by
  rw [padded, clean_ofList, cleanText_append]
  exact ⟨h, cleanText_replicate (by decide)⟩

@[simp] theorem clean_renderJsonField (numberText : Rat → String) (value : Option Json) :
    Clean (renderJsonField numberText value) := by
  unfold renderJsonField
  split
  · decide
  · exact clean_escapeTerminal _
  · exact clean_escapeTerminal _

@[simp] theorem noInjection_nil : NoInjection [] := by
  intro line hline
  cases hline

@[simp] theorem noInjection_cons (line : Line) (lines : List Line) :
    NoInjection (line :: lines) ↔ CleanLine line ∧ NoInjection lines := by
  unfold NoInjection
  rw [forall_mem_cons, cleanText_line]

@[simp] theorem noInjection_append (a b : List Line) :
    NoInjection (a ++ b) ↔ NoInjection a ∧ NoInjection b := forall_mem_append

/-! ## The parts of the summary are clean, but for the first line -/

/-- A crash whose signal or fault address has a control character. -/
def Injects (report : CrashReport) : Prop :=
  report.header.reportType = .crash ∧ ∃ exc ∈ report.exception,
    ¬ Clean exc.signal ∨ ∃ fault ∈ exc.faultAddress, ¬ Clean fault

@[simp] theorem cleanLine_processPart (header : ReportHeader) : CleanLine (processPart header) := by
  simp +decide [processPart]

/-- The first line of every other report is made of escaped texts. -/
theorem cleanLine_headerSummary_of_ne {report}
    (h : report.header.reportType ≠ .crash) : CleanLine (headerSummary report) := by
  simp only [headerSummary]
  cases htype : report.header.reportType with
  | crash => exact absurd htype h
  | anr => simp +decide
  | snapshot => simp +decide
  | oom => simp +decide
  | exitFailure =>
    simp only
    split
    · simp +decide
    · simp +decide
  | signalFailure =>
    simp only
    split
    next signal coreDumped runtimeMs _ =>
      have hcore : Clean (if coreDumped then ", core dumped" else "") := by split <;> decide
      have hcause : Clean
          (if signal = 9 then ", cause unknown (SIGKILL is not proof of OOM)" else "") := by
        split <;> decide
      simp +decide [hcore, hcause]
    · simp +decide

theorem cleanLine_headerSummary_iff (report : CrashReport) :
    CleanLine (headerSummary report) ↔ ¬ Injects report := by
  by_cases htype : report.header.reportType = .crash
  · have hpieces : CleanLine (headerSummary report) ↔
        Clean ((report.exception.map (·.signal)).getD "unknown signal") ∧
        Clean ((report.exception.bind (·.faultAddress)).getD "not applicable") := by
      simp +decide [headerSummary, htype]
    have hunknown : Clean "unknown signal" := by decide
    have happlicable : Clean "not applicable" := by decide
    rw [hpieces, Injects]
    cases report.exception with
    | none => simp [hunknown, happlicable]
    | some exc =>
      cases hfault : exc.faultAddress with
      | none => simp [htype, happlicable, hfault]
      | some fault => simp [htype, hfault, not_or]
  · have hclean := cleanLine_headerSummary_of_ne htype
    have hnot : ¬ Injects report := fun h => htype h.1
    exact iff_of_true hclean hnot

theorem cleanLine_joinParts {parts} (h : ∀ part ∈ parts, CleanLine part) :
    CleanLine (joinParts parts) := by
  have hbar : Clean " | " := by decide
  induction parts with
  | nil => exact cleanLine_nil
  | cons part rest ih =>
    have hpart := h part mem_cons_self
    have hrest := ih fun other hother => h other (mem_cons_of_mem _ hother)
    cases rest with
    | nil => exact hpart
    | cons next rest =>
      rw [joinParts, cleanLine_append, cleanLine_cons]
      · exact ⟨hpart, hbar, hrest⟩
      · simp

@[simp] theorem cleanLine_formatDuration (secs : Nat) : CleanLine (formatDuration secs) := by
  unfold formatDuration
  simp only
  split_ifs
  · simp +decide
  · simp +decide
  · simp +decide

@[simp] theorem cleanLine_producerLine (ctx : CrashContextReport) :
    CleanLine (producerLine ctx) := by
  have hstart : Clean ((ctx.sessionStartNs.map decimal).getD "unknown") := by
    cases ctx.sessionStartNs with
    | none => decide
    | some start => exact clean_decimal start
  unfold producerLine
  split
  · simp +decide [hstart]
  · simp +decide

section

variable (numberText : Rat → String) (report : CrashReport)

theorem noInjection_printCrashContext : NoInjection (printCrashContext numberText report) := by
  unfold printCrashContext
  cases report.crashContext with
  | none => simp +decide
  | some ctx =>
    have hjoined : CleanLine
        (joinParts (ctx.annotations.entries.map (annotationPart numberText))) := by
      apply cleanLine_joinParts
      intro part hpart
      obtain ⟨entry, -, rfl⟩ := mem_map.mp hpart
      simp +decide [annotationPart]
    simp only
    split
    · simp +decide
    · simp +decide [hjoined]

theorem noInjection_printSession : NoInjection (printSession report) := by
  unfold printSession
  cases report.session with
  | none => exact noInjection_nil
  | some session => simp +decide

theorem noInjection_printFingerprint : NoInjection (printFingerprint report) := by
  unfold printFingerprint
  cases report.fingerprint with
  | none => exact noInjection_nil
  | some fp => simp +decide

theorem noInjection_printFeedback : NoInjection (printFeedback numberText report) := by
  unfold printFeedback
  cases report.userFeedback with
  | none => exact noInjection_nil
  | some feedback => simp +decide

theorem noInjection_printException : NoInjection (printException report) := by
  unfold printException
  cases report.exception with
  | none => exact noInjection_nil
  | some exc =>
    have hfault : NoInjection
        (exc.faultAddress.map fun fault => ["  Fault address: ", escapeTerminal fault]).toList := by
      cases exc.faultAddress with
      | none => exact noInjection_nil
      | some fault => simp +decide
    have happroximate : NoInjection
        (if exc.signalIsApproximate then [["  Signal mapping: approximate"]] else []) := by
      split <;> decide
    simp only [noInjection_append, hfault, happroximate, and_true]
    simp +decide

theorem cleanLine_frameLine {i frame} : CleanLine (frameLine i frame) := by
  have hindex := clean_padded (clean_decimal i) 3
  have hoffset : CleanLine ((frame.offset.map fun o => [" + ", escapeTerminal o]).getD []) := by
    cases frame.offset with
    | none => exact cleanLine_nil
    | some o => simp +decide
  have himage : CleanLine ((frame.image.map fun img =>
      ["  [", escapeTerminal (lastSegment img), "]"]).getD []) := by
    cases frame.image with
    | none => exact cleanLine_nil
    | some img => simp +decide
  unfold frameLine
  simp only [cleanLine_append, hoffset, himage, and_true]
  split
  · simp +decide [hindex]
  · simp +decide [hindex]

theorem noInjection_printBacktrace : NoInjection (printBacktrace report) := by
  unfold printBacktrace
  cases shownThread report with
  | none => decide
  | some thread =>
    have hlabel : Clean (if thread.crashed then " [CRASHED]" else "") := by split <;> decide
    have hempty : NoInjection
        (if thread.backtrace.isEmpty then [["  (no backtrace)"]] else []) := by
      split <;> decide
    have hframes : NoInjection
        ((thread.backtrace.take maxFrames).zipIdx.map fun (frame, i) => frameLine i frame) := by
      intro line hline
      obtain ⟨⟨frame, i⟩, -, rfl⟩ := mem_map.mp hline
      exact cleanText_line.mpr cleanLine_frameLine
    have hmore : NoInjection (if thread.backtrace.length > maxFrames then
        [["  ... (", decimal (thread.backtrace.length - maxFrames), " more frames)"]]
        else []) := by
      split
      · simp +decide
      · exact noInjection_nil
    simp only [noInjection_append, hempty, hframes, hmore, and_true]
    simp +decide [hlabel]

theorem cleanLine_breadcrumbLine {crumb} : CleanLine (breadcrumbLine crumb) := by
  have hcat := clean_padded (clean_escapeTerminal crumb.cat) 8
  unfold breadcrumbLine
  simp only
  split
  · simp +decide [hcat]
  · simp +decide [hcat]

theorem noInjection_printBreadcrumbs : NoInjection (printBreadcrumbs report) := by
  unfold printBreadcrumbs
  cases report.breadcrumbs with
  | none => exact noInjection_nil
  | some crumbs =>
    have hlines : NoInjection
        ((crumbs.drop (crumbs.length - maxBreadcrumbs)).map breadcrumbLine) := by
      intro line hline
      obtain ⟨crumb, -, rfl⟩ := mem_map.mp hline
      exact cleanText_line.mpr cleanLine_breadcrumbLine
    simp only
    split
    · exact noInjection_nil
    · simp only [noInjection_append, hlines, and_true]
      simp +decide

theorem noInjection_printDiagnostics : NoInjection (printDiagnostics report) := by
  unfold printDiagnostics diagnosticsSummary
  cases report.diagnostics with
  | none => exact noInjection_nil
  | some diag => simp +decide

/-- Of all the lines only the first can carry a control character. -/
theorem noInjection_writeSummary_iff :
    NoInjection (writeSummary numberText report) ↔ ¬ Injects report := by
  have hheader : NoInjection (printHeader report) ↔ ¬ Injects report := by
    rw [printHeader, noInjection_cons, cleanLine_headerSummary_iff]
    simp +decide
  have hempty : NoInjection [[]] := by decide
  simp only [writeSummary, noInjection_append, noInjection_printCrashContext,
    noInjection_printSession, noInjection_printFingerprint, noInjection_printFeedback, hempty,
    noInjection_printException, noInjection_printBacktrace, noInjection_printBreadcrumbs,
    noInjection_printDiagnostics, and_true]
  exact hheader

end

/-- The final diagnostics of a manifest only add numbers to the summary. -/
theorem injects_overlay (finalDiagnostics : Option Json) (report : CrashReport) :
    Injects (overlayManifestDiagnostics finalDiagnostics report) ↔ Injects report := by
  cases finalDiagnostics with
  | none => rfl
  | some diagnostics => rfl

/-- The summary of a loaded report is free of control characters exactly if the
report is not a crash with one in its signal or fault address. -/
theorem summary_of_loaded_report_clean_iff (numberText : Rat → String)
    {document finalDiagnostics : Option Json} {report : CrashReport}
    (_ : decodeReport document = .ok report) : NoInjection
      (writeSummary numberText (overlayManifestDiagnostics finalDiagnostics report)) ↔
      ¬ Injects report := by
  rw [noInjection_writeSummary_iff, injects_overlay]

/-- A small crash report with a given signal. -/
def crashDocument (signal : String) : Json :=
  .object [("header", .object [("version", .number 1), ("timestamp", .string "now"),
      ("pid", .number 7), ("process", .string "app"), ("collector", .string "crash_monitor"),
      ("type", .string "crash")]),
    ("exception", .object [("type", .string "EXC_BAD_ACCESS"), ("code", .string "0x1"),
      ("subcode", .string "0x0"), ("signal", .string signal)])]

def crashReport (signal : String) : CrashReport where
  header :=
    { version := 1, reportId := none, timestamp := "now", pid := 7, process := "app",
      collector := "crash_monitor", reportType := .crash, terminationEvidence := none,
      trigger := none, hangDurationMs := none }
  termination := none
  exception := some
    { excType := "EXC_BAD_ACCESS", typeCode := 0, code := "0x1", codeName := none,
      codeValue := "", subcode := "0x0", rawCodes := [], severity := .fatal, signal := signal,
      signalIsApproximate := false, faultAddress := none }
  crashContext := none
  threads := []
  breadcrumbs := none
  session := none
  fingerprint := none
  userFeedback := none
  diagnostics := none

theorem decodeReport_crashDocument (signal : String) :
    decodeReport (some (crashDocument signal)) = .ok (crashReport signal) := by
  rfl

theorem injects_crashReport_iff (signal : String) :
    Injects (crashReport signal) ↔ ¬ Clean signal := by
  simp [Injects, crashReport]

theorem plain_crash_summary_clean : NoInjection (writeSummary (fun _ => "0")
      (overlayManifestDiagnostics none (crashReport "SIGSEGV"))) := by
  apply (summary_of_loaded_report_clean_iff _ (decodeReport_crashDocument "SIGSEGV")).mpr
  rw [injects_crashReport_iff]
  decide

/-- An escape sequence in the signal reaches the terminal. -/
theorem signal_reaches_terminal :
    decodeReport (some (crashDocument "\x1b[2J")) = .ok (crashReport "\x1b[2J") ∧
      ¬ NoInjection (writeSummary (fun _ => "0")
        (overlayManifestDiagnostics none (crashReport "\x1b[2J"))) := by
  refine ⟨decodeReport_crashDocument _, ?_⟩
  decide

end CrashMonitor.Report
