import CodeHealth.Advice.Extraction
import CodeHealth.Proofs.BraceScan
import CodeHealth.Proofs.JsonReader
import CodeHealth.Proofs.ReplyText
import Mathlib

/-!
Recovery of payloads: an object that a model was asked for is found again in its reply.

The object may stand alone, in a fenced block, or amid prose. Each place is tried in turn, so it is
also shown that no earlier place takes the reply for something else.
-/

namespace CodeHealth.Proofs.PayloadRecovery

open CodeHealth.Advice CodeHealth.Json CodeHealth.Text CodeHealth.Proofs.JsonText
open CodeHealth.Proofs.JsonLeaves CodeHealth.Proofs.JsonReader CodeHealth.Proofs.BraceScan
open CodeHealth.Proofs.ReplyText

variable {fields : List (String × Json)} {name : String}

/-! ### What an object says -/

/-- The text of a field without blanks around it; nothing if it is blank or no string. -/
def textOf (name : String) (fields : List (String × Json)) : Option String :=
  match field? name fields with
  | some (.string s) => if isBlankString s then none else some (trimmed s)
  | _ => none

/-- The strings of a field that is an array, without blanks around them and without blank ones. -/
def itemsOf (name : String) (fields : List (String × Json)) : List String :=
  match field? name fields with
  | some (.array items) =>
    ((items.filterMap asString?).filter fun s => !isBlankString s).map trimmed
  | _ => []

def payloadOf (fields : List (String × Json)) : Payload where
  summary := textOf "summary" fields
  insights := itemsOf "insights" fields
  suggestions := itemsOf "suggestions" fields

/-- An object that is a payload: it has a summary that is not blank, or one of the arrays. -/
def HasPayload (fields : List (String × Json)) : Prop :=
  (∃ s, field? "summary" fields = some (.string s) ∧ isBlankString s = false) ∨
  (∃ items, field? "suggestions" fields = some (.array items)) ∨
  ∃ items, field? "insights" fields = some (.array items)

lemma isBlankString_iff {s : String} : isBlankString s = true ↔ Blank s.toList := by
  simp [isBlankString, isBlankText, Blank]

lemma nonBlank?_eq (s : String) :
    nonBlank? s = if isBlankString s then none else some (trimmed s) := by
  have hempty : (trimmed s).isEmpty = isBlankString s := by
    rw [Bool.eq_iff_iff, isBlankString_iff, ← trim_eq_nil_iff]
    simp [trimmed]
  simp [nonBlank?, hempty]

lemma textOf_eq : textOf name fields = ((field? name fields).bind asString?).bind nonBlank? := by
  unfold textOf
  rcases field? name fields with _ | j
  · rfl
  · cases j <;> simp [asString?, nonBlank?_eq]

lemma filterMap_nonBlank? (ss : List String) :
    ss.filterMap nonBlank? = (ss.filter fun s => !isBlankString s).map trimmed := by
  induction ss with
  | nil => rfl
  | cons s ss ih => cases hs : isBlankString s <;> simp [nonBlank?_eq, hs, ← ih]

lemma itemsOf_eq : itemsOf name fields = ((field? name fields).bind stringItems?).getD [] := by
  unfold itemsOf
  rcases field? name fields with _ | j
  · rfl
  · cases j <;> simp [stringItems?, filterMap_nonBlank?]

lemma ofFields?_eq (h : HasPayload fields) :
    Payload.ofFields? fields = some (payloadOf fields) := by
  have hsome : ¬ (((field? "summary" fields).bind asString?).bind nonBlank? = none ∧
      (field? "suggestions" fields).bind stringItems? = none ∧
      (field? "insights" fields).bind stringItems? = none) := by
    rintro ⟨hsummary, hsuggestions, hinsights⟩
    rcases h with ⟨s, hs, hb⟩ | ⟨items, hi⟩ | ⟨items, hi⟩
    · simp [hs, asString?, nonBlank?_eq, hb] at hsummary
    · simp [hi, stringItems?] at hsuggestions
    · simp [hi, stringItems?] at hinsights
  simp only [Payload.ofFields?, Option.isNone_iff_eq_none, if_neg hsome, payloadOf, textOf_eq,
    itemsOf_eq]

lemma ofText?_eq {text : List Char} (h : read? text = some (.object fields))
    (hp : HasPayload fields) : Payload.ofText? text = some (payloadOf fields) := by
  rw [Payload.ofText?, h]
  exact ofFields?_eq hp

lemma ofText?_eq_none {text : List Char} (h : ∀ fs, read? text ≠ some (.object fs)) :
    Payload.ofText? text = none := by
  unfold Payload.ofText?
  split
  · next fs hfs => exact absurd hfs (h fs)
  · rfl

lemma hasPayload_of_ofFields? {payload : Payload}
    (h : Payload.ofFields? fields = some payload) : HasPayload fields := by
  by_contra hno
  simp only [HasPayload, not_or, not_exists, not_and] at hno
  obtain ⟨hsummary, hsuggestions, hinsights⟩ := hno
  have hsome : ((field? "summary" fields).bind asString?).bind nonBlank? = none := by
    cases hf : field? "summary" fields with
    | none => rfl
    | some j =>
      cases j with
      | string s =>
        have := hsummary s hf
        simp_all [asString?, nonBlank?_eq]
      | _ => rfl
  have hlist {name : String} (hno : ∀ items, field? name fields ≠ some (.array items)) :
      (field? name fields).bind stringItems? = none := by
    cases hf : field? name fields with
    | none => rfl
    | some j =>
      cases j with
      | array items => exact absurd hf (hno items)
      | _ => rfl
  simp [Payload.ofFields?, hsome, hlist hsuggestions, hlist hinsights] at h

lemma ofText?_of_not_hasPayload {text : List Char}
    (hread : read? text = some (.object fields)) (h : ¬ HasPayload fields) :
    Payload.ofText? text = none := by
  rw [Payload.ofText?, hread]
  by_contra hne
  obtain ⟨payload, hp⟩ := Option.ne_none_iff_exists'.mp hne
  exact h (hasPayload_of_ofFields? hp)

/-- **A text is a payload if it is an object that has one**, and it is that payload then. -/
theorem ofText?_eq_some_iff {text : List Char} {payload : Payload} :
    Payload.ofText? text = some payload ↔ ∃ fields, read? text = some (.object fields) ∧
      HasPayload fields ∧ payloadOf fields = payload := by
  constructor
  · intro h
    by_cases hobject : ∃ fields, read? text = some (.object fields)
    · obtain ⟨fields, hread⟩ := hobject
      by_cases hp : HasPayload fields
      · rw [ofText?_eq hread hp] at h
        exact ⟨fields, hread, hp, Option.some.inj h⟩
      · rw [ofText?_of_not_hasPayload hread hp] at h
        cases h
    · rw [ofText?_eq_none (not_exists.mp hobject)] at h
      cases h
  · rintro ⟨fields, hread, hp, rfl⟩
    exact ofText?_eq hread hp

/-! ### The places of a payload -/

section

variable {text t : List Char} {payload : Payload} (question : Question)

lemma extract_whole (h : Payload.ofText? (trim text) = some payload) :
    extract question (String.ofList text) = ⟨payload, .wholeResponse⟩ := by
  simp [extract, candidates, h]

lemma extract_fenced (hwhole : Payload.ofText? (trim text) = none)
    (hblock : fencedBlock? text = some t) (h : Payload.ofText? (trim t) = some payload) :
    extract question (String.ofList text) = ⟨payload, .fencedBlock⟩ := by
  simp [extract, candidates, hwhole, hblock, h]

lemma extract_outer (hwhole : Payload.ofText? (trim text) = none)
    (hfenced : fencedBlock? text = none) (hblock : outerBlock? text = some t)
    (h : Payload.ofText? t = some payload) :
    extract question (String.ofList text) = ⟨payload, .outerBraces⟩ := by
  simp [extract, candidates, hwhole, hfenced, hblock, h]

end

/-- **How an object may stand in a reply**, and where it is then found. The letters of a language's
name are those of ASCII. -/
inductive Embedded (object : List Char) : List Char → Strategy → Prop
  | alone {p s : List Char} : Blank p → Blank s → Embedded object (p ++ (object ++ s)) .wholeResponse
  | fenced {p lang s : List Char} : '`' ∉ p → (∀ c ∈ lang, isLanguageChar c = true) →
      ¬ fence <:+: object →
      Embedded object (p ++ (fence ++ (lang ++ '\n' :: (object ++ '\n' :: (fence ++ s)))))
        .fencedBlock
  | amid {p s : List Char} : '\x7b' ∉ p → ¬ (Blank p ∧ Blank s) →
      ¬ fence <:+: p ++ (object ++ s) → Embedded object (p ++ (object ++ s)) .outerBraces

/-- An object is written between braces, so trimming stops at it. -/
lemma solid_of_object {d : ℕ} {u : List Char} (h : Written d (.value (.object fields)) u) :
    Solid u := by
  obtain ⟨_, v, ws, -, -, rfl⟩ := exists_fields_of_object h
  exact ⟨⟨'\x7b', rfl, by decide⟩, ⟨'\x7d', by simp [List.getLast?_cons], by decide⟩⟩

lemma blank_of_spaces {ws : List Char} (h : Spaces ws) : Blank ws :=
  fun c hc => isBlank_of_isSpace (h c hc)

lemma read?_of_fenceLine {lang : List Char} (h : ∀ c ∈ lang, isLanguageChar c = true)
    (a t : List Char) : read? (a ++ '`' :: (lang ++ '\n' :: t)) = none := by
  cases hread : read? (a ++ '`' :: (lang ++ '\n' :: t)) with
  | none => rfl
  | some j =>
    have hrun := neutral_of_document (read?_eq_some_iff.mp hread) 1 le_rfl
    rw [run_append, run_fenceLine h] at hrun
    cases hrun

lemma read?_of_prose {cs : List Char} {c : Char} (hc : isBlank c = false) (hne : c ≠ '\x7b')
    (fs : List (String × Json)) : read? (c :: cs) ≠ some (.object fs) := by
  intro h
  obtain ⟨ws, u, ws', hws, hu, -, heq⟩ := read?_eq_some_iff.mp h
  obtain ⟨_, v, ws₁, -, -, rfl⟩ := exists_fields_of_object hu
  cases ws with
  | nil =>
    simp only [List.nil_append, List.cons_append, List.cons.injEq] at heq
    exact hne heq.1
  | cons x ws =>
    simp only [List.cons_append, List.cons.injEq] at heq
    have := isBlank_of_isSpace (hws x List.mem_cons_self)
    rw [← heq.1, hc] at this
    cases this

section

variable {u ws ws' p s : List Char}

lemma brace_notMem_append (hp : '\x7b' ∉ p) (hws : Spaces ws) : '\x7b' ∉ p ++ ws := by
  rw [List.mem_append]
  rintro (h | h)
  · exact hp h
  · exact absurd (hws _ h) (by decide)

lemma ofText?_trim_amid (hws : Spaces ws) (hu : Written depthLimit (.value (.object fields)) u)
    (hp : '\x7b' ∉ p) (hblank : ¬ (Blank p ∧ Blank s)) :
    Payload.ofText? (trim (p ++ (ws ++ (u ++ (ws' ++ s))))) = none := by
  refine ofText?_eq_none fun fs => ?_
  rw [← List.append_assoc, trim_append_solid (solid_of_object hu)]
  cases hfront : (p ++ ws).dropWhile isBlank with
  | nil =>
    -- nothing but blanks in front, so there is prose behind
    have hpre : Blank (p ++ ws) := List.dropWhile_eq_nil_iff.mp hfront
    have hback : ¬ Spaces (trimRight (ws' ++ s)) := by
      intro h
      have hs := (blank_append.mp (blank_of_trimRight (blank_of_spaces h))).2
      exact hblank ⟨(blank_append.mp hpre).1, hs⟩
    rw [read?_object_append spaces_nil hu hback]
    simp
  | cons c cs =>
    -- prose in front, and no brace in it
    have hmem : c ∈ p ++ ws :=
      (List.dropWhile_sublist isBlank).subset (by rw [hfront]; exact List.mem_cons_self)
    have hc : isBlank c = false := stop_of_dropWhile hfront
    have hne : c ≠ '\x7b' := by
      rintro rfl
      exact brace_notMem_append hp hws hmem
    exact read?_of_prose hc hne fs

lemma ofText?_trim_fenced {lang object : List Char} (hlang : ∀ c ∈ lang, isLanguageChar c = true) :
    Payload.ofText? (trim (p ++ (fence ++ (lang ++ '\n' :: (object ++ '\n' :: (fence ++ s)))))) =
      none := by
  have hsolid : Solid (fence ++ (lang ++ '\n' :: (object ++ '\n' :: fence))) :=
    ⟨⟨'`', rfl, by decide⟩, ⟨'`', by simp [fence, List.getLast?_cons], by decide⟩⟩
  have htext : p ++ (fence ++ (lang ++ '\n' :: (object ++ '\n' :: (fence ++ s)))) =
      p ++ ((fence ++ (lang ++ '\n' :: (object ++ '\n' :: fence))) ++ s) := by simp
  have hnone : read? (p.dropWhile isBlank ++
      ((fence ++ (lang ++ '\n' :: (object ++ '\n' :: fence))) ++ trimRight s)) = none := by
    simpa [fence] using read?_of_fenceLine hlang (p.dropWhile isBlank ++ ['`', '`'])
      (object ++ '\n' :: (fence ++ trimRight s))
  rw [htext, trim_append_solid hsolid]
  exact ofText?_eq_none fun fs => by rw [hnone]; simp

/-- **A payload is recovered wherever it is embedded**, for either question. -/
theorem extract_embedded {object text : List Char} {strategy : Strategy} (question : Question)
    (hread : read? object = some (.object fields)) (hpayload : HasPayload fields)
    (h : Embedded object text strategy) :
    extract question (String.ofList text) = ⟨payloadOf fields, strategy⟩ := by
  obtain ⟨ws, u, ws', hws, hu, hws', rfl⟩ := read?_eq_some_iff.mp hread
  have hsolid := solid_of_object hu
  have hofText := ofText?_eq (read?_of_written hu) hpayload
  have htrim {a b : List Char} (ha : Blank a) (hb : Blank b) :
      trim (a ++ ((ws ++ (u ++ ws')) ++ b)) = u := by
    have := trim_solid hsolid (blank_append.mpr ⟨ha, blank_of_spaces hws⟩)
      (blank_append.mpr ⟨blank_of_spaces hws', hb⟩)
    simpa using this
  cases h with
  | alone hp hs =>
    refine extract_whole question ?_
    rw [htrim hp hs, hofText]
  | fenced hp hlang hfence =>
    refine extract_fenced question (ofText?_trim_fenced hlang)
      (fencedBlock?_append hp hlang hfence _) ?_
    have hbody : trim (ws ++ (u ++ ws') ++ ['\n']) = u :=
      htrim (List.forall_mem_nil _) (by simp only [Blank, List.mem_singleton, forall_eq]; decide)
    rw [hbody, hofText]
  | @amid p s hp hblank hfence =>
    have hfenced : fencedBlock? (p ++ (ws ++ (u ++ ws') ++ s)) = none := by
      rw [fencedBlock?, splitAtMark?_eq_none (by simp [fence]) hfence]
    have hwhole : Payload.ofText? (trim (p ++ (ws ++ (u ++ ws') ++ s))) = none := by
      simpa using ofText?_trim_amid hws hu hp hblank
    have houter : outerBlock? (p ++ (ws ++ (u ++ ws') ++ s)) = some u := by
      simpa using outerBlock?_append (brace_notMem_append hp hws) hu (ws' ++ s)
    exact extract_outer question hwhole hfenced houter hofText

end

/-- An object with braces and quotes within its strings. -/
def trickyObject : List Char :=
  "\x7b\"summary\": \" a \\\"\x7d\x7b\\\" b\", \"suggestions\": [\"x\", 1, \" \"]\x7d".toList

def trickyFields : List (String × Json) :=
  [("summary", .string " a \"\x7d\x7b\" b"),
    ("suggestions", .array [.string "x", .integer 1, .string " "])]

theorem extract_embedded_tricky :
    (read? trickyObject = some (.object trickyFields) ∧ HasPayload trickyFields) ∧
    extract .report (String.ofList ("\x7b ".toList ++ (fence ++ ("json".toList ++ '\n' ::
      (trickyObject ++ '\n' :: (fence ++ " \x7d".toList)))))) =
      ⟨⟨some "a \"\x7d\x7b\" b", [], ["x"]⟩, .fencedBlock⟩ ∧
    extract .snippet (String.ofList ("So: ".toList ++ (trickyObject ++ " \x7b".toList))) =
      ⟨⟨some "a \"\x7d\x7b\" b", [], ["x"]⟩, .outerBraces⟩ := by
  have hread : read? trickyObject = some (.object trickyFields) := by cbv
  have hpayload : HasPayload trickyFields :=
    .inl ⟨" a \"\x7d\x7b\" b", by simp [field?, trickyFields], by decide⟩
  have hpayloadOf : payloadOf trickyFields = ⟨some "a \"\x7d\x7b\" b", [], ["x"]⟩ := by decide
  rw [← hpayloadOf]
  refine ⟨⟨hread, hpayload⟩, extract_embedded .report hread hpayload (.fenced ?_ ?_ ?_),
    extract_embedded .snippet hread hpayload (.amid ?_ ?_ ?_)⟩
  · decide
  · exact List.all_eq_true.mp rfl
  · decide
  · decide
  · exact fun h => absurd (h.1 'S' (by decide)) (by decide)
  · decide

end CodeHealth.Proofs.PayloadRecovery
