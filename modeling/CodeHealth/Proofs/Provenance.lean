import CodeHealth.Advice.Enhancement
import CodeHealth.Proofs.Retry

/-!
Where the advice in a report comes from.

A report may be sent for advice again and again, each time with its own settings, to a service
that answers as it likes. Every call replaces the three marks of where the advice comes from
together, and all that the analysis found stays as it was.
-/

namespace CodeHealth.Proofs.Provenance

open CodeHealth.Advice CodeHealth.Proofs.Retry

/-- One call: what passed between the report before and the report after. -/
structure Call where
  settings : Settings
  before : Report
  record : Record
  after : Report

/-- The calls that are made one after the other, each on the report that the last one gave. -/
def session (p : Policy) : List Settings → Report → Record → List Call
  | [], _, _ => []
  | s :: ss, r, log =>
    let out := (enhance (played p) s r).run log
    ⟨s, r, out.2.drop log.length, out.1⟩ :: session p ss out.1 out.2

/-- The advice comes from the model of the settings. -/
def Enhanced (s : Settings) (r : Report) : Prop :=
  r.aiEnhanced = true ∧ r.aiModel = some s.modelName ∧ r.aiError = none

/-- There is no advice, and the report says why. -/
def Unenhanced (r : Report) : Prop :=
  r.aiEnhanced = false ∧ r.aiModel = none ∧ ∃ text, r.aiError = some text ∧ text ≠ ""

def bare (f : Finding) : Finding := { f with suggestion := none }

/-- Two reports on the same analysis: they differ in summary, suggestions and marks alone. -/
structure SameAnalysis (a b : Report) : Prop where
  platform : b.platform = a.platform
  timestamp : b.timestamp = a.timestamp
  project : b.project = a.project
  healthScore : b.healthScore = a.healthScore
  metrics : b.metrics = a.metrics
  diagnostics : b.diagnostics = a.diagnostics
  findings : b.findings.map bare = a.findings.map bare

/-- The answers of one call: refusals that are followed by another attempt, and the one that the
call is left with. -/
def Retried (retries : ℕ) (os : List Outcome) (last : Outcome) : Prop :=
  ∃ refused, os = refused ++ [last] ∧ (∀ o ∈ refused, isRefusal o = true) ∧
    refused.length ≤ retries ∧ (isRefusal last = true → refused.length = retries)

/-- A call fails if it is left with a failure or with a blank reply. -/
def Fails : Outcome → Prop
  | .error _ => True
  | .ok reply => Text.isBlankString reply = true

/-! ### Marks -/

lemma append_ne_empty_left {a : String} (h : a ≠ "") (b : String) : a ++ b ≠ "" := fun hc =>
  h (String.append_eq_empty_iff.mp hc).1

lemma append_ne_empty_right (a : String) {b : String} (h : b ≠ "") : a ++ b ≠ "" := fun hc =>
  h (String.append_eq_empty_iff.mp hc).2

lemma failure_message_ne_empty (f : Failure) : f.message ≠ "" := by
  cases f with
  | other status d => exact append_ne_empty_left (append_ne_empty_right _ (by decide)) d
  | _ => exact append_ne_empty_right _ (by decide)

lemma message_ne_empty (u : Unavailable) : u.message ≠ "" := by
  cases u with
  | missingKey key url =>
    exact append_ne_empty_left (append_ne_empty_right _ (by decide)) url
  | failed f => exact failure_message_ne_empty f
  | emptyReply => exact of_decide_eq_true rfl

lemma enhanced_withAdvice (s : Settings) (r : Report) (e : Payload) :
    Enhanced s (r.withAdvice s.modelName e) := ⟨rfl, rfl, rfl⟩

lemma unenhanced_withoutAdvice (r : Report) (u : Unavailable) :
    Unenhanced (r.withoutAdvice u.message) := ⟨rfl, rfl, _, rfl, message_ne_empty u⟩

lemma not_enhanced_of_unenhanced {s : Settings} {r : Report} (h : Unenhanced r) :
    ¬ Enhanced s r := by
  rintro ⟨hon, -, -⟩
  rw [h.1] at hon
  cases hon

/-! ### Findings -/

lemma map_bare_suggestAll (fs : List Finding) (ss : List String) :
    (suggestAll fs ss).map bare = fs.map bare := by
  induction fs generalizing ss with
  | nil => simp [suggestAll]
  | cons f fs ih =>
    cases ss with
    | nil => simp [suggestAll, bare, ih]
    | cons s ss => simp [suggestAll, bare, ih]

lemma getElem?_suggestAll (fs : List Finding) (ss : List String) (i : ℕ) :
    (suggestAll fs ss)[i]? =
      fs[i]?.map fun f => { f with suggestion := some (ss[i]?.getD f.message) } := by
  induction fs generalizing ss i with
  | nil => simp [suggestAll]
  | cons f fs ih => cases ss <;> cases i <;> simp [suggestAll, ih]

/-! ### One call -/

namespace SameAnalysis

lemma refl (r : Report) : SameAnalysis r r := ⟨rfl, rfl, rfl, rfl, rfl, rfl, rfl⟩

lemma trans {a b c : Report} (h : SameAnalysis a b) (k : SameAnalysis b c) : SameAnalysis a c :=
  ⟨k.platform.trans h.platform, k.timestamp.trans h.timestamp, k.project.trans h.project,
    k.healthScore.trans h.healthScore, k.metrics.trans h.metrics,
    k.diagnostics.trans h.diagnostics, k.findings.trans h.findings⟩

end SameAnalysis

lemma sameAnalysis_reconcile (s : Settings) (r : Report) (x : Except Unavailable Extraction) :
    SameAnalysis r (reconcile s r x) := by
  cases x with
  | error u => exact ⟨rfl, rfl, rfl, rfl, rfl, rfl, rfl⟩
  | ok e => exact ⟨rfl, rfl, rfl, rfl, rfl, rfl, map_bare_suggestAll _ _⟩

lemma readOutcome_of_fails {o : Outcome} (h : Fails o) (question : Question) :
    ∃ u, readOutcome question o = .error u := by
  cases o with
  | error f => exact ⟨.failed f, rfl⟩
  | ok reply => exact ⟨.emptyReply, if_pos h⟩

lemma readOutcome_of_not_blank {reply : String} (h : Text.isBlankString reply = false)
    (question : Question) : readOutcome question (.ok reply) = .ok (extract question reply) := by
  simp [readOutcome, readReply, h]

/-- **What one call does to a report**, given the answer that it is left with. -/
structure Reconciled (s : Settings) (before after : Report) (last : Outcome) : Prop where
  same : SameAnalysis before after
  failure : Fails last → Unenhanced after ∧ after.summary = before.summary ∧
    after.findings = before.findings
  success : ∀ reply, last = .ok reply → Text.isBlankString reply = false →
    Enhanced s after ∧
    after.summary = (extract .report reply).payload.summary.getD before.summary ∧
    ∀ (i : ℕ) (f : Finding), before.findings[i]? = some f →
      after.findings[i]?.map (·.suggestion) =
        some (some ((extract .report reply).payload.suggestions[i]?.getD f.message))

lemma reconciled (s : Settings) (r : Report) (o : Outcome) :
    Reconciled s r (reconcile s r (readOutcome .report o)) o where
  same := sameAnalysis_reconcile s r _
  failure h := by
    obtain ⟨u, hu⟩ := readOutcome_of_fails h .report
    rw [hu]
    exact ⟨unenhanced_withoutAdvice r u, rfl, rfl⟩
  success reply ho hb := by
    subst ho
    rw [readOutcome_of_not_blank hb]
    refine ⟨enhanced_withAdvice s r _, rfl, fun i f hf => ?_⟩
    simp only [reconcile, Report.withAdvice]
    rw [getElem?_suggestAll, hf]
    rfl

lemma fails_or_reply (o : Outcome) :
    Fails o ∨ ∃ reply, o = .ok reply ∧ Text.isBlankString reply = false := by
  cases o with
  | error f => exact Or.inl trivial
  | ok reply =>
    cases hb : Text.isBlankString reply with
    | true => exact Or.inl hb
    | false => exact Or.inr ⟨reply, rfl, hb⟩

lemma Reconciled.marks {s : Settings} {before after : Report} {o : Outcome}
    (h : Reconciled s before after o) : Xor (Enhanced s after) (Unenhanced after) := by
  rcases fails_or_reply o with hf | ⟨reply, ho, hb⟩
  · have hu := (h.failure hf).1
    exact Or.inr ⟨hu, not_enhanced_of_unenhanced hu⟩
  · have he := (h.success reply ho hb).1
    exact Or.inl ⟨he, fun hu => not_enhanced_of_unenhanced hu he⟩

lemma enhance_played (p : Policy) (s : Settings) (r : Report) (log : Record) :
    ∃ ds o, (enhance (played p) s r).run log =
        (reconcile s r (readOutcome .report o),
          log ++ settled (s.request (reportPrompt r) (some systemPrompt)) 1 ds o) ∧
      ds.length ≤ s.retries ∧ (isRefusal o = true → ds.length = s.retries) := by
  obtain ⟨ds, o, hrun, hlen, hlast⟩ :=
    completeFrom_played p (s.request (reportPrompt r) (some systemPrompt)) s.retries 1 log
  refine ⟨ds, o, ?_, hlen, hlast⟩
  simp only [enhance, ask, complete, StateT.run_bind, hrun]
  rfl

lemma retried_settled (q : Request) (k : ℕ) {ds : List String} {o : Outcome} {retries : ℕ}
    (hlen : ds.length ≤ retries) (hlast : isRefusal o = true → ds.length = retries) :
    Retried retries (answers (settled q k ds o)) o := by
  refine ⟨ds.map fun d => .error (.rateLimited d), answers_settled q k ds o, ?_, ?_, ?_⟩
  · intro x hx
    obtain ⟨d, -, rfl⟩ := List.mem_map.mp hx
    rfl
  · rwa [List.length_map]
  · rwa [List.length_map]

/-! ### Sessions -/

lemma session_inv (p : Policy) (ss : List Settings) (first r : Report) (log : Record)
    (hr : SameAnalysis first r) :
    ∀ c ∈ session p ss r log, SameAnalysis first c.before ∧ ∃ last,
      Retried c.settings.retries (answers c.record) last ∧
        Reconciled c.settings c.before c.after last := by
  induction ss generalizing r log with
  | nil => simp [session]
  | cons s ss ih =>
    obtain ⟨ds, o, hrun, hlen, hlast⟩ := enhance_played p s r log
    intro c hc
    rw [session, hrun] at hc
    rcases List.mem_cons.mp hc with rfl | hc
    · refine ⟨hr, o, ?_, reconciled s r o⟩
      simp only [List.drop_left']
      exact retried_settled _ 1 hlen hlast
    · exact ih _ _ (hr.trans (sameAnalysis_reconcile s r _)) c hc

/-- **Every call settles where the advice comes from.** Whatever report a session starts with, and
whatever the service answers: after each call the report either has the advice of the model or says
why it has none, and the analysis is that of the first report. A call that is left with a failure or
a blank reply keeps summary and suggestions; any other reply gives each finding its suggestion, or
its own message, and the summary if it has one. -/
theorem session_provenance (p : Policy) (ss : List Settings) (first : Report) (log : Record) :
    ∀ c ∈ session p ss first log,
      Xor (Enhanced c.settings c.after) (Unenhanced c.after) ∧ SameAnalysis first c.after ∧
      ∃ last, Retried c.settings.retries (answers c.record) last ∧
        Reconciled c.settings c.before c.after last := by
  intro c hc
  obtain ⟨hsame, last, hretried, hrec⟩ := session_inv p ss first first log (.refl first) c hc
  exact ⟨hrec.marks, hsame.trans hrec.same, last, hretried, hrec⟩

/-- A service that refuses once, then replies well, and then has nothing more to say. -/
def moody : Policy := fun log _ =>
  match (answers log).length with
  | 0 => .error (.rateLimited "busy")
  | 1 => .ok "\x7b\"summary\": \"Fine.\", \"suggestions\": [\"Use let\"]\x7d"
  | _ => .ok " \n"

/-- Settings that allow one more attempt. -/
def patient : Settings := { Settings.default with retries := 1 }

def smallReport : Report :=
  { (default : Report) with
    findings := [⟨"no-var", "Use let or const.", .warning, ⟨"a.js"⟩, 1, 1, none, none⟩] }

/-- The second call meets a blank reply, on a report that the first one enhanced. -/
theorem session_provenance_moody :
    ∃ c ∈ session moody [patient, patient] smallReport [],
      c.before.aiEnhanced = true ∧ c.before.summary = "Fine." ∧ answers c.record = [.ok " \n"] ∧
      Xor (Enhanced c.settings c.after) (Unenhanced c.after) ∧ SameAnalysis smallReport c.after ∧
      ∃ last, Retried c.settings.retries (answers c.record) last ∧
        Reconciled c.settings c.before c.after last := by
  have hmem : (session moody [patient, patient] smallReport [])[1] ∈
      session moody [patient, patient] smallReport [] := List.getElem_mem (by decide +kernel)
  exact ⟨_, hmem, rfl, by decide +kernel, rfl, session_provenance moody _ smallReport [] _ hmem⟩

end CodeHealth.Proofs.Provenance
