import ModuleBuild.Proofs.Json.RoundTrip
import ModuleBuild.Proofs.SourceLists
import ModuleBuild.Report

/-!
# The line of a report

A report is written for programs as one line (`Report.emit_json`).  When its texts consist of scalar
values, it is a portable value as a JSON object, so the line is printable ASCII and is read back
(`Report.emit_read_back`).  The reader here is the one of source lists, which refuses an object that
repeats a name; no object of a report does, since each lists its members in ascending order of their
names (`Report.hasOrderedNames`).
-/

namespace ModuleBuild

/-! ### Reports of scalar values -/

/-- Whether the texts of an error consist of scalar values. -/
structure BuildError.IsScalar (e : BuildError) : Prop where
  /-- The message does. -/
  message : e.message.IsScalar
  /-- The path does. -/
  path : ∀ t ∈ e.path, t.IsScalar
  /-- The name of the module does. -/
  moduleName : ∀ t ∈ e.moduleName, t.IsScalar
  /-- The reason does. -/
  cause : ∀ t ∈ e.cause, t.IsScalar

/-- Whether the texts of an outcome consist of scalar values. -/
structure Outcome.IsScalar (o : Outcome) : Prop where
  /-- The name of the module does. -/
  moduleName : o.moduleName.IsScalar
  /-- The word for the status does. -/
  status : o.status.text.IsScalar
  /-- The texts of the warnings do. -/
  warnings : ∀ w ∈ o.warnings, w.IsScalar
  /-- The texts of the error do. -/
  error : ∀ e ∈ o.error, e.IsScalar

/-- Whether the texts of a report consist of scalar values. -/
def Report.IsScalar (r : Report) : Prop := ∀ o ∈ r.outcomes, o.IsScalar

/-- A text that may be missing is portable if it consists of scalar values. -/
lemma BuildError.isPortable_optionalString {t : Option Text} (ht : ∀ s ∈ t, s.IsScalar) :
    (optionalString t).IsPortable := by
  cases t with
  | none => trivial
  | some s => exact ht s rfl

/-- An error is portable. -/
lemma BuildError.IsScalar.isPortable {e : BuildError} (h : e.IsScalar) :
    e.toJson.IsPortable := by
  have hcode : e.kind.code.IsScalar := by cases e.kind <;> exact Text.isScalar_ofChars _
  exact ⟨Text.isScalar_ofChars _, isPortable_optionalString h.cause, Text.isScalar_ofChars _,
    h.message, Text.isScalar_ofChars _, isPortable_optionalString h.moduleName,
    Text.isScalar_ofChars _, isPortable_optionalString h.path, Text.isScalar_ofChars _, hcode,
    trivial⟩

/-- An outcome is portable. -/
lemma Outcome.IsScalar.isPortable {o : Outcome} (h : o.IsScalar) : o.toJson.IsPortable := by
  have herror : ((o.error.map BuildError.toJson).getD .null).IsPortable := by
    cases herror : o.error with
    | none => trivial
    | some e => exact (h.error e herror).isPortable
  have hwarnings : Json.ArePortable (o.warnings.map BuildError.toJson) := by
    rw [Json.arePortable_iff, List.forall_mem_map]
    exact fun w hw => (h.warnings w hw).isPortable
  exact ⟨Text.isScalar_ofChars _, herror, Text.isScalar_ofChars _, h.moduleName,
    Text.isScalar_ofChars _, h.status, Text.isScalar_ofChars _, hwarnings, trivial⟩

namespace Report

variable {r r' : Report}

/-- A report is portable. -/
lemma IsScalar.isPortable (h : r.IsScalar)
    (hsize : Numeral.digitCount r.outcomes.length ≤ Numeral.maxDigits) : r.toJson.IsPortable := by
  have houtcomes : Json.ArePortable (r.sortedOutcomes.map Outcome.toJson) := by
    rw [Json.arePortable_iff, List.forall_mem_map]
    exact fun o ho => (h o ((List.mergeSort_perm _ _).mem_iff.1 ho)).isPortable
  exact ⟨Text.isScalar_ofChars _, (length_toDigits_mono List.countP_le_length).trans hsize,
    Text.isScalar_ofChars _, (length_toDigits_mono (List.length_filterMap_le _ _)).trans hsize,
    Text.isScalar_ofChars _, trivial, Text.isScalar_ofChars _, houtcomes, trivial⟩

end Report

/-! ### Names in order -/

/-- Whether every object in a value lists its members in ascending order of their names. -/
def Json.Value.HasOrderedNames (v : Json.Value) : Prop :=
  ∀ members ∈ v.objects, (members.map Prod.fst).Pairwise (· < ·)

/-- An error lists its members in order. -/
lemma BuildError.hasOrderedNames (e : BuildError) : e.toJson.HasOrderedNames := by
  have hobjects (t : Option Text) : (optionalString t).objects = [] := by cases t <;> rfl
  intro members hmembers
  simp only [toJson, Json.Value.objects, Json.memberObjects, hobjects, List.append_nil,
    List.nil_append, List.mem_singleton] at hmembers
  subst hmembers
  simp only [List.map_cons, List.map_nil]
  decide

/-- An outcome lists its members in order, and so do the errors in it. -/
lemma Outcome.hasOrderedNames (o : Outcome) : o.toJson.HasOrderedNames := by
  intro members hmembers
  simp only [toJson, Json.Value.objects, Json.memberObjects, List.append_nil, List.nil_append,
    List.mem_append, List.mem_singleton] at hmembers
  rcases hmembers with (herror | hwarnings) | rfl
  · cases he : o.error with
    | none =>
      rw [he] at herror
      cases herror
    | some e =>
      rw [he] at herror
      exact e.hasOrderedNames members herror
  · obtain ⟨v, hv, hmembers⟩ := Json.mem_itemObjects.1 hwarnings
    obtain ⟨w, -, rfl⟩ := List.mem_map.1 hv
    exact w.hasOrderedNames members hmembers
  · simp only [List.map_cons, List.map_nil]
    decide

/-- A report lists its members in order, and so do the outcomes in it. -/
lemma Report.hasOrderedNames (r : Report) : r.toJson.HasOrderedNames := by
  intro members hmembers
  simp only [toJson, count, Json.Value.objects, Json.memberObjects, List.append_nil,
    List.nil_append, List.mem_append, List.mem_singleton] at hmembers
  rcases hmembers with houtcomes | rfl
  · obtain ⟨v, hv, hmembers⟩ := Json.mem_itemObjects.1 houtcomes
    obtain ⟨o, -, rfl⟩ := List.mem_map.1 hv
    exact o.hasOrderedNames members hmembers
  · simp only [List.map_cons, List.map_nil]
    decide

/-! ### The line -/

/-- A printed value whose objects have ordered names is a document, perhaps with blanks after it. -/
lemma SourceList.document_print {v : Json.Value} (hv : v.IsPortable) (hnames : v.HasOrderedNames)
    (blanks : List Char) (hblanks : ∀ c ∈ blanks, Json.isBlank c = true) :
    document (v.print .compact ++ blanks) = .ok v := by
  have hrepeated : v.objects.findSome? repeatedName = none := by
    rw [List.findSome?_eq_none_iff]
    intro members hmembers
    rw [repeatedName_eq_none_iff]
    exact (hnames members hmembers).nodup
  simp only [document, Json.read_print hv blanks hblanks, hrepeated]
  rfl

namespace Report

variable {r r' : Report}

/-- What is written for programs is the line and a line feed. -/
lemma emit_json (r : Report) : r.emit true = ⟨Text.ofChars (r.jsonLine ++ ['\n']), []⟩ := by
  simp [emit, Text.ofLines, Text.ofChars]

/-- The line is read as the JSON object, perhaps with blanks after it. -/
lemma document_jsonLine (hscalar : r.IsScalar)
    (hsize : Numeral.digitCount r.outcomes.length ≤ Numeral.maxDigits) (blanks : List Char)
    (hblanks : ∀ c ∈ blanks, Json.isBlank c = true) :
    SourceList.document (r.jsonLine ++ blanks) = .ok r.toJson :=
  SourceList.document_print (hscalar.isPortable hsize) r.hasOrderedNames blanks hblanks

/-- The line tells reports apart whenever their JSON objects do. -/
lemma emit_json_inj (hscalar : r.IsScalar) (hscalar' : r'.IsScalar)
    (hsize : Numeral.digitCount r.outcomes.length ≤ Numeral.maxDigits)
    (hsize' : Numeral.digitCount r'.outcomes.length ≤ Numeral.maxDigits) :
    r.emit true = r'.emit true ↔ r.toJson = r'.toJson := by
  rw [emit_json, emit_json, Streams.mk.injEq, and_iff_left rfl, Text.ofChars_inj,
    List.append_left_inj]
  exact Json.print_inj (hscalar.isPortable hsize) (hscalar'.isPortable hsize')

/-- A report of scalar values is written for programs as one line of printable ASCII, and nothing is
written to standard error.  With or without the line feed at its end, the line is a document that is
read as the JSON object of the report, with no name repeated; so it tells reports apart whenever
their JSON objects do.

A count of outcomes has to have few enough digits to be read at all, and that of any list in the
memory of a machine has. -/
theorem emit_read_back (hscalar : r.IsScalar)
    (hsize : Numeral.digitCount r.outcomes.length ≤ Numeral.maxDigits) :
    ∃ line : List Char,
      r.emit true = ⟨Text.ofChars (line ++ ['\n']), []⟩ ∧
      (∀ c ∈ line, ' ' ≤ c ∧ c ≤ '~') ∧
      SourceList.document line = .ok r.toJson ∧
      SourceList.document (line ++ ['\n']) = .ok r.toJson ∧
      ∀ r' : Report, r'.IsScalar → Numeral.digitCount r'.outcomes.length ≤ Numeral.maxDigits →
        (r.emit true = r'.emit true ↔ r.toJson = r'.toJson) := by
  refine ⟨r.jsonLine, emit_json r, Json.isPrintable_print (hscalar.isPortable hsize), ?_,
    document_jsonLine hscalar hsize ['\n'] (by simp [Json.isBlank]),
    fun r' hscalar' hsize' => emit_json_inj hscalar hscalar' hsize hsize'⟩
  have hread := document_jsonLine hscalar hsize [] (by simp)
  rwa [List.append_nil] at hread

/-- A report with a quote, a control character, the delete character and one beyond U+FFFF. -/
def escapedReport : Report where
  outcomes := [⟨"𝄞", .failed, [], some ⟨.cannotReadFile, "no", some "a\"b", none, some "\x7f\n"⟩⟩]

/-- Its line. -/
def escapedLine : List Char :=
  ["\x7b\"built_count\":0,\"error_count\":1,\"ok\":false,\"outcomes\":[\x7b\"error\":\x7b",
    "\"cause\":\"\\u007f\\n\",\"message\":\"no\",\"module_name\":null,\"path\":\"a\\\"b\",",
    "\"reason_code\":\"CANNOT_READ_FILE\"\x7d,\"module_name\":\"\\ud834\\udd1e\",",
    "\"status\":\"failed\",\"warnings\":[]\x7d]\x7d"].flatMap String.toList

/-- The line has escapes for these characters and is read as the report. -/
theorem emit_escaped :
    escapedReport.IsScalar ∧ Numeral.digitCount escapedReport.outcomes.length ≤ Numeral.maxDigits ∧
      escapedReport.emit true = ⟨Text.ofChars (escapedLine ++ ['\n']), []⟩ ∧
      SourceList.document escapedLine = .ok escapedReport.toJson := by
  have hsome (cs : List Char) : ∀ t ∈ some (Text.ofChars cs), t.IsScalar := by
    rintro t ht
    cases ht
    exact Text.isScalar_ofChars cs
  have hscalar : escapedReport.IsScalar := by
    rw [IsScalar, escapedReport, List.forall_mem_singleton]
    refine ⟨Text.isScalar_ofChars _, Text.isScalar_ofChars _, by simp, ?_⟩
    rintro e he
    cases he
    exact ⟨Text.isScalar_ofChars _, hsome _, nofun, hsome _⟩
  have hsize : Numeral.digitCount escapedReport.outcomes.length ≤ Numeral.maxDigits := by decide
  have hline : escapedReport.emit true = ⟨Text.ofChars (escapedLine ++ ['\n']), []⟩ := by
    rw [emit_json, show escapedReport.jsonLine = escapedLine by decide +kernel]
  obtain ⟨line, hemit, -, hread, -, -⟩ := emit_read_back hscalar hsize
  rw [hline, Streams.mk.injEq, Text.ofChars_inj, List.append_left_inj] at hemit
  exact ⟨hscalar, hsize, hline, hemit.1 ▸ hread⟩

end Report

end ModuleBuild
