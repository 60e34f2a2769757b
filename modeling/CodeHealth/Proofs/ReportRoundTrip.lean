import CodeHealth.Proofs.InstantText
import CodeHealth.Proofs.ScoreHalves
import CodeHealth.Report.Format

/-!
The report in JSON, read back.

Each record is decoded from what it was encoded as: a field is found under its name, an optional
field that was left out comes back absent, and so does an empty list of diagnostics. The numbers of
a report have to fit their words, and its score is a number of halves, as the scorer gives it.
-/

namespace CodeHealth.Proofs.ReportRoundTrip

open CodeHealth.Json CodeHealth.Proofs.JsonText CodeHealth.Proofs.JsonWriter
open CodeHealth.Proofs.InstantText CodeHealth.Proofs.ScoreHalves

/-! ### Fields -/

section

variable {α : Type} {encode : α → Json} {fields : List (String × Json)} {name : String}
variable (decode : Json → Option α)

lemma field?_append (as bs : List (String × Json)) :
    field? name (as ++ bs) = (field? name bs).or (field? name as) := by
  induction as with
  | nil => simp [field?]
  | cons a as ih =>
    obtain ⟨k, v⟩ := a
    rw [List.cons_append, field?, field?, ih, Option.or_assoc]

lemma field?_fieldIfSome (k : String) (o : Option α) :
    field? name (fieldIfSome k encode o) = if k = name then o.map encode else none := by
  cases o <;> simp [fieldIfSome, field?]

lemma field?_unless (c : Prop) [Decidable c] (k : String) (v : Json) :
    field? name (if c then [] else [(k, v)]) =
      if k = name then if c then none else some v else none := by
  split_ifs <;> simp_all [field?]

lemma required?_of {a : α} (hf : field? name fields = some (encode a))
    (ha : decode (encode a) = some a) : required? decode fields name = some a := by
  rw [required?, hf]
  exact ha

lemma optional?_of {o : Option α} (hf : field? name fields = o.map encode)
    (hne : ∀ a, encode a ≠ .null) (ho : ∀ a ∈ o, decode (encode a) = some a) :
    optional? decode fields name = some o := by
  rw [optional?, hf]
  cases o with
  | none => rfl
  | some a =>
    rw [Option.map_some]
    split
    · next h => cases h
    · next h => exact absurd (Option.some.inj h) (hne a)
    · next h =>
      rw [← Option.some.inj h, ho a rfl]
      rfl

lemma defaulted?_of (default : α) {a : α} (hf : field? name fields = some (encode a))
    (ha : decode (encode a) = some a) : defaulted? decode default fields name = some a := by
  rw [defaulted?, hf]
  exact ha

lemma list?_map {as : List α} (h : ∀ a ∈ as, decode (encode a) = some a) :
    list? decode (.array (as.map encode)) = some as := by
  rw [list?, List.mapM_map]
  induction as with
  | nil => rfl
  | cons a as ih =>
    obtain ⟨ha, has⟩ := List.forall_mem_cons.mp h
    rw [List.mapM_cons]
    simp [ha, ih has]

lemma table?_map {es : List (String × α)} (h : ∀ e ∈ es, decode (encode e.2) = some e.2) :
    table? decode (.object (es.map fun e => (e.1, encode e.2))) = some es := by
  rw [table?, List.mapM_map]
  induction es with
  | nil => rfl
  | cons e es ih =>
    obtain ⟨he, hes⟩ := List.forall_mem_cons.mp h
    rw [List.mapM_cons]
    simp [he, ih hes]

lemma forall_fieldIfSome {P : Json → Prop} {o : Option α} :
    (∀ f ∈ fieldIfSome name encode o, P f.2) ↔ ∀ a ∈ o, P (encode a) := by
  cases o <;> simp [fieldIfSome]

end

/-! ### Leaves -/

lemma ofJson?_severity (s : Severity) : Severity.ofJson? s.toJson = some s := by
  cases s <;> decide

lemma ofJson?_platform (p : Platform) : Platform.ofJson? p.toJson = some p := by
  cases p <;> decide

lemma ofJson?_path (p : Path) : Path.ofJson? p.toJson = some p := rfl

lemma asNatBelow?_ofNat {bound n : ℕ} (h : n < bound) : asNatBelow? bound (.ofNat n) = some n := by
  simp [asNatBelow?, ofNat, h]

lemma list?_strings (ss : List String) : list? asString? (strings ss) = some ss :=
  list?_map asString? fun _ _ => rfl

/-! ### Records -/

lemma ofJson?_finding {f : Finding} (hline : f.line < Word.bound32)
    (hcolumn : f.column < Word.bound32) : Finding.ofJson? f.toJson = some f := by
  obtain ⟨fields, hobject, hid, hmessage, hseverity, hfile, hl, hc, hsuggestion, hcategory⟩ :
      ∃ fields, f.toJson = .object fields ∧ field? "ruleId" fields = some (.string f.ruleId) ∧
        field? "message" fields = some (.string f.message) ∧
        field? "severity" fields = some f.severity.toJson ∧
        field? "file" fields = some f.file.toJson ∧ field? "line" fields = some (.ofNat f.line) ∧
        field? "column" fields = some (.ofNat f.column) ∧
        field? "suggestion" fields = f.suggestion.map .string ∧
        field? "category" fields = f.category.map .string := by
    refine ⟨_, rfl, ?_⟩
    simp [field?_append, field?_fieldIfSome, field?]
  have hid := required?_of asString? hid rfl
  have hmessage := required?_of asString? hmessage rfl
  have hseverity := required?_of Severity.ofJson? hseverity (ofJson?_severity f.severity)
  have hfile := required?_of Path.ofJson? hfile (ofJson?_path f.file)
  have hl := required?_of (asNatBelow? Word.bound32) hl (asNatBelow?_ofNat hline)
  have hc := required?_of (asNatBelow? Word.bound32) hc (asNatBelow?_ofNat hcolumn)
  have hsuggestion := optional?_of asString? hsuggestion (by simp) fun _ _ => rfl
  have hcategory := optional?_of asString? hcategory (by simp) fun _ _ => rfl
  rw [hobject]
  simp [Finding.ofJson?, record?, hid, hmessage, hseverity, hfile, hl, hc, hsuggestion, hcategory]

lemma ofJson?_diagnostic (d : Diagnostic) : Diagnostic.ofJson? d.toJson = some d := by
  obtain ⟨fields, hobject, hfile, hid, hmessage⟩ :
      ∃ fields, d.toJson = .object fields ∧ field? "file" fields = d.file.map Path.toJson ∧
        field? "ruleId" fields = d.ruleId.map .string ∧
        field? "message" fields = some (.string d.message) := by
    refine ⟨_, rfl, ?_⟩
    simp [field?_append, field?_fieldIfSome, field?]
  have hfile := optional?_of Path.ofJson? hfile (by simp [Path.toJson]) fun p _ => ofJson?_path p
  have hid := optional?_of asString? hid (by simp) fun _ _ => rfl
  have hmessage := required?_of asString? hmessage rfl
  rw [hobject]
  simp [Diagnostic.ofJson?, record?, hfile, hid, hmessage]

def CountsFit (c : SeverityCounts) : Prop :=
  (c.error < Word.bound64 ∧ c.warning < Word.bound64) ∧ c.info < Word.bound64 ∧
    c.total < Word.bound64

lemma ofJson?_counts {c : SeverityCounts} (h : CountsFit c) :
    SeverityCounts.ofJson? c.toJson = some c := by
  obtain ⟨⟨he, hw⟩, hi, ht⟩ := h
  obtain ⟨fields, hobject, herror, hwarning, hinfo, htotal⟩ :
      ∃ fields, c.toJson = .object fields ∧ field? "error" fields = some (.ofNat c.error) ∧
        field? "warning" fields = some (.ofNat c.warning) ∧
        field? "info" fields = some (.ofNat c.info) ∧
        field? "total" fields = some (.ofNat c.total) := by
    refine ⟨_, rfl, ?_⟩
    simp [field?]
  have herror := required?_of (asNatBelow? Word.bound64) herror (asNatBelow?_ofNat he)
  have hwarning := required?_of (asNatBelow? Word.bound64) hwarning (asNatBelow?_ofNat hw)
  have hinfo := required?_of (asNatBelow? Word.bound64) hinfo (asNatBelow?_ofNat hi)
  have htotal := required?_of (asNatBelow? Word.bound64) htotal (asNatBelow?_ofNat ht)
  rw [hobject]
  simp [SeverityCounts.ofJson?, record?, herror, hwarning, hinfo, htotal]

structure FiguresFit (m : Metrics) : Prop where
  bySeverity : CountsFit m.bySeverity
  byCategory : ∀ e ∈ m.byCategory.entries, e.2 < Word.bound64
  filesAnalyzed : m.filesAnalyzed < Word.bound64

lemma ofJson?_metrics {m : Metrics} (h : FiguresFit m) : Metrics.ofJson? m.toJson = some m := by
  obtain ⟨fields, hobject, hseverity, hcategory, hfiles⟩ :
      ∃ fields, m.toJson = .object fields ∧ field? "bySeverity" fields = some m.bySeverity.toJson ∧
        field? "byCategory" fields =
          some (.object (m.byCategory.entries.map fun e => (e.1, .ofNat e.2))) ∧
        field? "filesAnalyzed" fields = some (.ofNat m.filesAnalyzed) := by
    refine ⟨_, rfl, ?_⟩
    simp [field?]
  have hseverity := required?_of SeverityCounts.ofJson? hseverity (ofJson?_counts h.bySeverity)
  have htable := table?_map (asNatBelow? Word.bound64) fun e he =>
    asNatBelow?_ofNat (h.byCategory e he)
  have hcategory : required? (table? (asNatBelow? Word.bound64)) fields "byCategory" =
      some m.byCategory.entries := by
    rw [required?, hcategory]
    exact htable
  have hfiles := required?_of (asNatBelow? Word.bound64) hfiles (asNatBelow?_ofNat h.filesAnalyzed)
  rw [hobject]
  simp [Metrics.ofJson?, record?, hseverity, hcategory, hfiles, KeyMap.ofList_entries]

lemma ofJson?_project (p : ProjectInfo) : ProjectInfo.ofJson? p.toJson = some p := by
  obtain ⟨fields, hobject, hname, hframework, hversion, hdeps, hdev⟩ :
      ∃ fields, p.toJson = .object fields ∧ field? "projectName" fields = some (.string p.name) ∧
        field? "framework" fields = some (.string p.framework) ∧
        field? "version" fields = some (.string p.version) ∧
        field? "dependencies" fields = some (strings p.dependencies) ∧
        field? "devDependencies" fields = some (strings p.devDependencies) := by
    refine ⟨_, rfl, ?_⟩
    simp [field?]
  have hname := required?_of asString? hname rfl
  have hframework := required?_of asString? hframework rfl
  have hversion := required?_of asString? hversion rfl
  have hdeps := defaulted?_of (list? asString?) [] hdeps (list?_strings p.dependencies)
  have hdev := defaulted?_of (list? asString?) [] hdev (list?_strings p.devDependencies)
  rw [hobject]
  simp [ProjectInfo.ofJson?, record?, hname, hframework, hversion, hdeps, hdev]

lemma defaulted?_diagnostics {fields : List (String × Json)} {ds : List Diagnostic}
    (h : field? "diagnostics" fields =
      if ds.isEmpty then none else some (.array (ds.map (·.toJson)))) :
    defaulted? (list? Diagnostic.ofJson?) [] fields "diagnostics" = some ds := by
  rw [defaulted?, h]
  cases ds with
  | nil => rfl
  | cons d ds => exact list?_map Diagnostic.ofJson? fun d _ => ofJson?_diagnostic d

/-- The numbers of a report fit their words, its time lies in the bounds of the calendar, and its
score is a number of halves from zero to ten. -/
structure Fits (r : Report) : Prop where
  score : ∃ n ≤ 20, r.healthScore = floatOfHalves n
  places : ∀ f ∈ r.findings, f.line < Word.bound32 ∧ f.column < Word.bound32
  figures : ∀ m ∈ r.metrics, FiguresFit m
  timestamp : InRange r.timestamp

/-- **A report is decoded** from what it is encoded as. -/
theorem ofJson?_report {r : Report} (h : Fits r) :
    Report.ofJson? r.toJson = some { r with timestamp := settled r.timestamp } := by
  obtain ⟨fields, hobject, hplatform, htime, hproject, hfindings, hscore, hsummary, hmetrics,
      henhanced, hmodel, herror, hdiagnostics⟩ :
      ∃ fields, r.toJson = .object fields ∧ field? "platform" fields = some r.platform.toJson ∧
        field? "timestamp" fields = some (.string r.timestamp.write) ∧
        field? "project" fields = some r.project.toJson ∧
        field? "findings" fields = some (.array (r.findings.map (·.toJson))) ∧
        field? "healthScore" fields = some (.float r.healthScore) ∧
        field? "summary" fields = some (.string r.summary) ∧
        field? "metrics" fields = r.metrics.map Metrics.toJson ∧
        field? "aiEnhanced" fields = some (.bool r.aiEnhanced) ∧
        field? "aiModel" fields = r.aiModel.map .string ∧
        field? "aiError" fields = r.aiError.map .string ∧
        field? "diagnostics" fields =
          if r.diagnostics.isEmpty then none
          else some (.array (r.diagnostics.map (·.toJson))) := by
    refine ⟨_, rfl, ?_⟩
    simp [Report.fieldsBehindTime, field?_append, field?_fieldIfSome, field?_unless, field?]
  -- each field is decoded as its own record is
  have hplatform := required?_of Platform.ofJson? hplatform (ofJson?_platform r.platform)
  have htime : required? (fun t => t.asString?.bind Instant.parse?) fields "timestamp" =
      some (settled r.timestamp) := by
    have hparse := parse?_write h.timestamp
    rw [required?, htime, Option.bind_some, asString?, Option.bind_some, hparse]
  have hproject := required?_of ProjectInfo.ofJson? hproject (ofJson?_project r.project)
  have hlist := list?_map Finding.ofJson? fun f hf =>
    ofJson?_finding (h.places f hf).1 (h.places f hf).2
  have hfindings : required? (list? Finding.ofJson?) fields "findings" = some r.findings := by
    rw [required?, hfindings]
    exact hlist
  have hscore := required?_of asFloat? hscore rfl
  have hsummary := required?_of asString? hsummary rfl
  have hmetrics := optional?_of Metrics.ofJson? hmetrics (by simp [Metrics.toJson])
    fun m hm => ofJson?_metrics (h.figures m hm)
  have henhanced := defaulted?_of asBool? false henhanced rfl
  have hmodel := optional?_of asString? hmodel (by simp) fun _ _ => rfl
  have herror := optional?_of asString? herror (by simp) fun _ _ => rfl
  have hdiagnostics := defaulted?_diagnostics hdiagnostics
  rw [hobject, Report.ofJson?]
  refine Option.bind_eq_some_iff.mpr ⟨fields, rfl, ?_⟩
  refine Option.bind_eq_some_iff.mpr ⟨_, hplatform, ?_⟩
  refine Option.bind_eq_some_iff.mpr ⟨_, htime, ?_⟩
  refine Option.bind_eq_some_iff.mpr ⟨_, hproject, ?_⟩
  refine Option.bind_eq_some_iff.mpr ⟨_, hfindings, ?_⟩
  refine Option.bind_eq_some_iff.mpr ⟨_, hscore, ?_⟩
  refine Option.bind_eq_some_iff.mpr ⟨_, hsummary, ?_⟩
  refine Option.bind_eq_some_iff.mpr ⟨_, hmetrics, ?_⟩
  refine Option.bind_eq_some_iff.mpr ⟨_, henhanced, ?_⟩
  refine Option.bind_eq_some_iff.mpr ⟨_, hmodel, ?_⟩
  refine Option.bind_eq_some_iff.mpr ⟨_, herror, ?_⟩
  exact Option.bind_eq_some_iff.mpr ⟨_, hdiagnostics, rfl⟩

/-! ### Readable records -/

section

variable {d : ℕ}

lemma readable_strings (ss : List String) : Readable (d + 2) (strings ss) := by
  refine .array fun j hj => ?_
  obtain ⟨s, -, rfl⟩ := List.mem_map.mp hj
  exact .string s

lemma readable_finding {f : Finding} (hline : f.line < Word.bound32)
    (hcolumn : f.column < Word.bound32) : Readable (d + 2) f.toJson := by
  have hbound : Word.bound32 ≤ Word.bound64 := by decide
  refine .object ?_
  simp only [List.forall_mem_append, List.forall_mem_cons, List.not_mem_nil, false_implies,
    implies_true, and_true, forall_fieldIfSome]
  exact ⟨⟨⟨.string _, .string _, .string _, .string _, .natural (hline.trans_le hbound),
    .natural (hcolumn.trans_le hbound)⟩, fun s _ => .string s⟩, fun s _ => .string s⟩

lemma readable_diagnostic (g : Diagnostic) : Readable (d + 2) g.toJson := by
  refine .object ?_
  simp only [List.forall_mem_append, List.forall_mem_cons, List.not_mem_nil, false_implies,
    implies_true, and_true, forall_fieldIfSome]
  exact ⟨⟨fun p _ => .string p.text, fun s _ => .string s⟩, .string _⟩

lemma readable_counts {c : SeverityCounts} (h : CountsFit c) : Readable (d + 2) c.toJson := by
  obtain ⟨⟨he, hw⟩, hi, ht⟩ := h
  refine .object ?_
  simp only [List.forall_mem_cons, List.not_mem_nil, false_implies, implies_true, and_true]
  exact ⟨.natural he, .natural hw, .natural hi, .natural ht⟩

lemma readable_metrics {m : Metrics} (h : FiguresFit m) : Readable (d + 3) m.toJson := by
  refine .object ?_
  simp only [List.forall_mem_cons, List.not_mem_nil, false_implies, implies_true, and_true]
  refine ⟨readable_counts h.bySeverity, .object fun e he => ?_, .natural h.filesAnalyzed⟩
  obtain ⟨⟨c, n⟩, hc, rfl⟩ := List.mem_map.mp he
  exact .natural (h.byCategory (c, n) hc)

lemma readable_project (p : ProjectInfo) : Readable (d + 3) p.toJson := by
  refine .object ?_
  simp only [List.forall_mem_cons, List.not_mem_nil, false_implies, implies_true, and_true]
  exact ⟨.string _, .string _, .string _, readable_strings _, readable_strings _⟩

lemma readable_halves {n : ℕ} (h : n ≤ 20) : Readable d (.float (floatOfHalves n)) := by
  -- so few numbers that each can be looked at
  have htext : ∀ n ≤ 20, (writeFloat (floatOfHalves n)).toList =
      Nat.toDigits 10 (n / 2) ++ (['.', if n % 2 = 0 then '0' else '5'] ++ []) := by
    decide +kernel
  have hvalue : ∀ n ≤ 20, (Json.Numeral.mk false (Nat.toDigits 10 (n / 2))
      (some [if n % 2 = 0 then '0' else '5']) none).toFloat? = some (floatOfHalves n) := by
    decide +kernel
  have hdigit : Digits [if n % 2 = 0 then '0' else '5'] := by
    refine ⟨List.cons_ne_nil _ _, List.forall_mem_singleton.mpr ?_⟩
    split_ifs <;> rfl
  have hunsigned : Unsigned false _ _ := .mk (whole_toDigits (n / 2)) (.some hdigit) .none
  refine .float ?_
  rw [htext n h]
  exact ⟨_, hunsigned, by simp [Json.Numeral.toJson?, hvalue n h]⟩

lemma readable_report {r : Report} (h : Fits r) : Readable (d + 4) r.toJson := by
  obtain ⟨n, hn, hscore⟩ := h.score
  have hdiagnostics : ∀ f ∈ (if r.diagnostics.isEmpty then ([] : List (String × Json))
      else [("diagnostics", .array (r.diagnostics.map (·.toJson)))]), Readable (d + 3) f.2 := by
    split_ifs
    · exact List.forall_mem_nil _
    · refine List.forall_mem_singleton.mpr (.array fun j hj => ?_)
      obtain ⟨g, -, rfl⟩ := List.mem_map.mp hj
      exact readable_diagnostic g
  have hfindings : Readable (d + 3) (.array (r.findings.map (·.toJson))) := by
    refine .array fun j hj => ?_
    obtain ⟨f, hf, rfl⟩ := List.mem_map.mp hj
    exact readable_finding (h.places f hf).1 (h.places f hf).2
  refine .object ?_
  simp only [Report.fieldsBehindTime, List.forall_mem_append, List.forall_mem_cons,
    List.not_mem_nil, false_implies, implies_true, and_true, forall_fieldIfSome]
  refine ⟨⟨.string _, .string _⟩, ⟨⟨⟨⟨⟨?_, ?_, ?_, .string _⟩, ?_⟩, .bool _⟩, fun s _ => .string s⟩,
    fun s _ => .string s⟩, hdiagnostics⟩
  · exact readable_project _
  · exact hfindings
  · rw [hscore]
    exact readable_halves hn
  · exact fun m hm => readable_metrics (h.figures m hm)

end

/-- **A report is read back** from the JSON text it is rendered as, whatever stands in its strings:
the same report, its time settled. -/
theorem ofText?_render {r : Report} (h : Fits r) :
    Report.ofText? (r.render .json) = some { r with timestamp := settled r.timestamp } := by
  have hread : read? r.toJson.pretty.toList = some r.toJson := read?_pretty (readable_report h)
  rw [Report.render, Report.json, Report.ofText?, hread]
  exact ofJson?_report h

/-- A report with quotes and breaks in its texts, without diagnostics and with an error. -/
def sampleReport : Report where
  platform := .nextJs
  timestamp := ⟨1735689599, 1500000000⟩
  project := ⟨"caf\u00e9 \"shop\"", "Next.js", "1.0.0", ["next"], []⟩
  findings := [⟨"no-var", "Unexpected\tvar\n", .warning, ⟨"src/a.ts"⟩, 3, 5, none, some "style"⟩]
  healthScore := floatOfHalves 18
  summary := "One issue \\ one file."
  metrics := some ⟨⟨0, 1, 0, 1⟩, .ofList [("style", 1)], 1⟩
  aiEnhanced := false
  aiModel := none
  aiError := some "timeout"
  diagnostics := []

theorem ofText?_render_sample :
    Fits sampleReport ∧ Report.ofText? (sampleReport.render .json) = some sampleReport := by
  have hfits : Fits sampleReport := by
    refine ⟨⟨18, by decide, rfl⟩, ?_, ?_, ⟨by decide, by decide⟩⟩
    · exact List.forall_mem_singleton.mpr ⟨by decide, by decide⟩
    · rintro m ⟨⟩
      exact ⟨⟨⟨by decide, by decide⟩, by decide, by decide⟩,
        List.forall_mem_singleton.mpr (by decide), by decide⟩
  have hsettled : settled sampleReport.timestamp = sampleReport.timestamp := by decide
  have hreport :
      { sampleReport with timestamp := settled sampleReport.timestamp } = sampleReport := by
    rw [hsettled]
  exact ⟨hfits, (ofText?_render hfits).trans (congrArg some hreport)⟩

end CodeHealth.Proofs.ReportRoundTrip
