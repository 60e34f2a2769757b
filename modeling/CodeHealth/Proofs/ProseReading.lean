import CodeHealth.Advice.Extraction
import CodeHealth.Proofs.ReplyText
import CodeHealth.Proofs.TextLines

/-!
Replies that are read as prose.

Where a reply holds no payload, it is read as prose: there is a summary of bounded length and at
least one suggestion. Whether each of them says something depends on the marks of emphasis in the
reply, since cleaning may leave nothing of a bullet or of the text that is picked for the summary.
-/

namespace CodeHealth.Proofs.ProseReading

open CodeHealth.Advice CodeHealth.Text CodeHealth.Proofs.ReplyText

/-- Nothing but pairs of stars and blanks. -/
def Hollow (t : List Char) : Prop := Blank (dropStrong t)

/-- The text that becomes the summary once it is cleaned and cut. -/
def summarySource (text : List Char) : List Char :=
  ((labelledSummary? text).or
    ((paragraphs text).find? fun p => 20 ≤ p.length && isProse p)).getD (trim text)

/-- A payload in which every text says something. -/
structure Telling (payload : Payload) : Prop where
  summary : ∀ s ∈ payload.summary, ¬ Blank s.toList
  suggestions : ∀ s ∈ payload.suggestions, ¬ Blank s.toList
  insights : ∀ s ∈ payload.insights, ¬ Blank s.toList

section

variable {text t s : List Char}

lemma not_blank_of_mem {c : Char} (h : c ∈ t) (hc : isBlank c = false) : ¬ Blank t := by
  intro hblank
  rw [hblank c h] at hc
  cases hc

/-! ### Cleaning -/

lemma blank_trim : Blank (trim t) ↔ Blank t := by
  refine ⟨fun h => blank_of_dropWhile (blank_of_trimRight h), fun h => ?_⟩
  rw [trim_eq_nil_iff.mpr h]
  exact List.forall_mem_nil _

lemma clean_eq_nil_iff : clean t = [] ↔ Hollow t := trim_eq_nil_iff

lemma blank_clean : Blank (clean t) ↔ Hollow t := blank_trim

/-! ### The summary -/

lemma proseSummary_eq (text : List Char) :
    proseSummary text = truncate maxSummary (clean (summarySource text)) := rfl

lemma length_truncate {max : ℕ} (h : 3 ≤ max) (t : List Char) : (truncate max t).length ≤ max := by
  rw [truncate]
  split_ifs with ht
  · exact ht
  · simp only [List.length_append, List.length_take, List.length_cons, List.length_nil]
    omega

lemma blank_truncate_clean (max : ℕ) : Blank (truncate max (clean t)) ↔ Hollow t := by
  rw [truncate]
  split_ifs with ht
  · exact blank_clean
  · -- a cut text ends with dots, and a hollow one is not cut
    refine iff_of_false (not_blank_of_mem (c := '.') (by simp) (by decide)) fun h => ?_
    rw [clean_eq_nil_iff.mpr h] at ht
    simp at ht

lemma blank_proseSummary : Blank (proseSummary text) ↔ Hollow (summarySource text) :=
  blank_truncate_clean maxSummary

/-! ### Paragraphs -/

lemma of_joinLines {P : List Char → Prop} {ls : List (List Char)}
    (hjoin : ∀ a b, P (a ++ ' ' :: b) → P a ∧ P b) (h : P (joinLines ls)) : ∀ l ∈ ls, P l := by
  induction ls with
  | nil => exact List.forall_mem_nil _
  | cons l ls ih =>
    cases ls with
    | nil => exact List.forall_mem_singleton.mpr h
    | cons m ls =>
      obtain ⟨hl, hrest⟩ := hjoin _ _ h
      exact List.forall_mem_cons.mpr ⟨hl, ih hrest⟩

/-- What no line has that is not blank, and what a text has only if its parts have it, no paragraph
has. -/
lemma forall_paragraphs {P : List Char → Prop} (hjoin : ∀ a b, P (a ++ ' ' :: b) → P a ∧ P b)
    (htrim : ∀ l, P (trim l) → P l) (h : ∀ l ∈ lines text, ¬ Blank l → ¬ P l) :
    ∀ p ∈ paragraphs text, ¬ P p := by
  -- the lines read so far do not have it either
  suffices hfrom : ∀ (ls current : List (List Char)), (∀ l ∈ current, ¬ P l) →
      (∀ l ∈ ls, ¬ Blank l → ¬ P l) → ∀ p ∈ paragraphsFrom current ls, ¬ P p from
    hfrom (lines text) [] (List.forall_mem_nil _) h
  have hparagraph {current : List (List Char)} (hcurrent : ∀ l ∈ current, ¬ P l)
      (hne : current.isEmpty = false) : ¬ P (joinLines current.reverse) := by
    obtain ⟨l, current, rfl⟩ := List.exists_cons_of_ne_nil (by simpa using hne)
    intro hp
    exact hcurrent l List.mem_cons_self (of_joinLines hjoin hp l (by simp))
  intro ls
  induction ls with
  | nil =>
    intro current hcurrent _ p hp
    rw [paragraphsFrom] at hp
    split_ifs at hp with hne
    · simp at hp
    · rw [List.mem_singleton.mp hp]
      exact hparagraph hcurrent (by simpa using hne)
  | cons l ls ih =>
    intro current hcurrent hls p hp
    rw [List.forall_mem_cons] at hls
    rw [paragraphsFrom] at hp
    split_ifs at hp with hblank hne
    · exact ih [] (List.forall_mem_nil _) hls.2 p hp
    · rcases List.mem_cons.mp hp with rfl | hp
      · exact hparagraph hcurrent (by simpa using hne)
      · exact ih [] (List.forall_mem_nil _) hls.2 p hp
    · have hl : ¬ P l := hls.1 (by simpa [isBlankText, Blank] using hblank)
      exact ih _ (List.forall_mem_cons.mpr ⟨fun h => hl (htrim l h), hcurrent⟩) hls.2 p hp

lemma not_blank_of_mem_paragraphs (h : s ∈ paragraphs text) : ¬ Blank s := by
  refine forall_paragraphs (fun a b hab => ?_) (fun _ => blank_trim.mp) (fun _ _ hl => hl) s h
  obtain ⟨ha, hb⟩ := blank_append.mp hab
  exact ⟨ha, (List.forall_mem_cons.mp hb).2⟩

/-! ### Suggestions -/

lemma forall_firstNonEmpty {α : Type} {P : α → Prop} {xss : List (List α)}
    (h : ∀ xs ∈ xss, ∀ x ∈ xs, P x) : ∀ x ∈ firstNonEmpty xss, P x := by
  induction xss with
  | nil => exact List.forall_mem_nil _
  | cons xs xss ih =>
    rw [List.forall_mem_cons] at h
    rw [firstNonEmpty]
    split_ifs
    · exact ih h.2
    · exact h.1

lemma firstNonEmpty_of_nil {α : Type} (xss : List (List α)) :
    firstNonEmpty ([] :: xss) = firstNonEmpty xss := rfl

lemma firstNonEmpty_of_ne_nil {α : Type} {xs : List α} (h : xs ≠ []) (xss : List (List α)) :
    firstNonEmpty (xs :: xss) = xs := by
  rw [firstNonEmpty, if_neg (by simpa using h)]

lemma firstNonEmpty_ne_nil {α : Type} {xs : List α} {xss : List (List α)} (h : xs ≠ [])
    (hxs : xs ∈ xss) : firstNonEmpty xss ≠ [] := by
  induction xss with
  | nil => cases hxs
  | cons ys xss ih =>
    by_cases hys : ys = []
    · rw [hys, firstNonEmpty_of_nil]
      rcases List.mem_cons.mp hxs with rfl | hxs
      · exact absurd hys h
      · exact ih hxs
    · rwa [firstNonEmpty_of_ne_nil hys]

lemma not_blank_trim (h : trim t ≠ []) : ¬ Blank (trim t) :=
  fun hb => h (trim_eq_nil_iff.mpr (blank_trim.mp hb))

lemma not_blank_of_mem_arrayItems (h : s ∈ arrayItems text) : ¬ Blank s := by
  unfold arrayItems at h
  split at h
  · obtain ⟨hs, hne⟩ := List.mem_filter.mp h
    obtain ⟨⟨_, t⟩, -, rfl⟩ := List.mem_map.mp hs
    exact not_blank_trim (by simpa using hne)
  · cases h

lemma exists_of_mem_bulletsBelow {words : List (List Char)} (h : s ∈ bulletsBelow words text) :
    ∃ l ∈ lines text, ∃ item, bullet? l = some item ∧ s = clean item := by
  have hleading (found : Bool) (ls : List (List Char)) (h : s ∈ leadingBullets found ls) :
      ∃ l ∈ ls, ∃ item, bullet? l = some item ∧ s = clean item := by
    induction ls generalizing found with
    | nil => cases h
    | cons l ls ih =>
      rw [leadingBullets] at h
      split at h
      · next item hitem =>
        rcases List.mem_cons.mp h with rfl | h
        · exact ⟨l, List.mem_cons_self, item, hitem, rfl⟩
        · obtain ⟨m, hm, hs⟩ := ih true h
          exact ⟨m, List.mem_cons_of_mem l hm, hs⟩
      · split_ifs at h
        · cases h
        · obtain ⟨m, hm, hs⟩ := ih found h
          exact ⟨m, List.mem_cons_of_mem l hm, hs⟩
  obtain ⟨l, hl, hs⟩ := hleading false _ h
  exact ⟨l, List.dropWhile_subset _ (List.drop_subset _ _ hl), hs⟩

lemma blank_of_mem_bulletsBelow {words : List (List Char)} (h : s ∈ bulletsBelow words text) :
    Blank s ↔ s = [] := by
  obtain ⟨-, -, item, -, rfl⟩ := exists_of_mem_bulletsBelow h
  rw [blank_clean, clean_eq_nil_iff]

/-- The bullets below a header all say something if and only if none of them is empty. -/
lemma forall_bulletsBelow {words : List (List Char)} :
    (∀ s ∈ bulletsBelow words text, ¬ Blank s) ↔ [] ∉ bulletsBelow words text := by
  constructor
  · exact fun h hnil => h [] hnil (List.forall_mem_nil _)
  · intro h s hs hblank
    rw [(blank_of_mem_bulletsBelow hs).mp hblank] at hs
    exact h hs

lemma not_blank_of_mem_allBullets (h : s ∈ allBullets text) : ¬ Blank s := by
  obtain ⟨hs, hne⟩ := List.mem_filter.mp h
  obtain ⟨l, -, hl⟩ := List.mem_filterMap.mp hs
  obtain ⟨item, -, rfl⟩ := Option.map_eq_some_iff.mp hl
  exact not_blank_trim (by simpa [clean] using hne)

lemma not_blank_of_mem_adviceSentences (h : s ∈ adviceSentences text) : ¬ Blank s := by
  obtain ⟨hs, hlength⟩ := List.mem_filter.mp h
  obtain ⟨t, -, rfl⟩ := List.mem_map.mp hs
  refine not_blank_trim fun hnil => ?_
  rw [clean, hnil] at hlength
  simp at hlength

lemma proseSuggestions_ne_nil : proseSuggestions text ≠ [] :=
  firstNonEmpty_ne_nil (List.cons_ne_nil genericSuggestion []) (by simp)

/-- **The suggestions all say something** if and only if they come from an array, or no bullet below
their header is empty. -/
theorem forall_proseSuggestions : (∀ s ∈ proseSuggestions text, ¬ Blank s) ↔
    arrayItems text ≠ [] ∨ [] ∉ bulletsBelow suggestionWords text := by
  by_cases harray : arrayItems text = []
  case neg =>
    rw [proseSuggestions, firstNonEmpty_of_ne_nil harray]
    simpa [harray] using fun s => not_blank_of_mem_arrayItems
  rw [proseSuggestions, harray, firstNonEmpty_of_nil]
  by_cases hbelow : bulletsBelow suggestionWords text = []
  case neg =>
    rw [firstNonEmpty_of_ne_nil hbelow, forall_bulletsBelow]
    simp
  rw [hbelow, firstNonEmpty_of_nil]
  have hgeneric : ¬ Blank genericSuggestion := not_blank_of_mem (c := 'R') (by decide) (by decide)
  refine iff_of_true (forall_firstNonEmpty ?_) (.inr List.not_mem_nil)
  simp only [List.forall_mem_cons, List.not_mem_nil, false_implies, implies_true, and_true]
  exact ⟨fun s => not_blank_of_mem_allBullets, fun s => not_blank_of_mem_adviceSentences,
    fun s hs => not_blank_of_mem_paragraphs (List.mem_filter.mp (List.mem_of_mem_take hs)).1,
    hgeneric⟩

lemma forall_proseInsights : (∀ s ∈ proseInsights text, ¬ Blank s) ↔
    [] ∉ bulletsBelow insightWords text ∧
      (bulletsBelow insightWords text = [] → ¬ Hollow (summarySource text)) := by
  by_cases hbelow : bulletsBelow insightWords text = []
  · rw [proseInsights, hbelow, firstNonEmpty_of_nil]
    simp [firstNonEmpty, blank_proseSummary]
  · rw [proseInsights, firstNonEmpty_of_ne_nil hbelow, forall_bulletsBelow]
    simp [hbelow]

lemma ofList_mem_map {ls : List (List Char)} :
    (∀ s ∈ ls.map String.ofList, ¬ Blank s.toList) ↔ ∀ l ∈ ls, ¬ Blank l := by
  simp

/-- **Prose is told in full** if and only if something is left of its summary and of the bullets
that are taken from below headers. -/
theorem telling_prosePayload_iff (question : Question) : Telling (prosePayload question text) ↔
    ¬ Hollow (summarySource text) ∧
    (arrayItems text ≠ [] ∨ [] ∉ bulletsBelow suggestionWords text) ∧
    (question = .snippet → [] ∉ bulletsBelow insightWords text) := by
  have hsummary : (∀ s ∈ (prosePayload question text).summary, ¬ Blank s.toList) ↔
      ¬ Hollow (summarySource text) := by
    simp [prosePayload, blank_proseSummary]
  have hsuggestions : (∀ s ∈ (prosePayload question text).suggestions, ¬ Blank s.toList) ↔
      arrayItems text ≠ [] ∨ [] ∉ bulletsBelow suggestionWords text :=
    ofList_mem_map.trans forall_proseSuggestions
  have hinsights : (∀ s ∈ (prosePayload question text).insights, ¬ Blank s.toList) ↔
      (question = .snippet → [] ∉ bulletsBelow insightWords text ∧
        (bulletsBelow insightWords text = [] → ¬ Hollow (summarySource text))) := by
    cases question with
    | report => simp [prosePayload]
    | snippet => exact (ofList_mem_map.trans forall_proseInsights).trans (by simp)
  constructor
  · rintro ⟨hs, hg, hi⟩
    exact ⟨hsummary.mp hs, hsuggestions.mp hg, fun hq => (hinsights.mp hi hq).1⟩
  · rintro ⟨hs, hg, hi⟩
    exact ⟨hsummary.mpr hs, hsuggestions.mpr hg, hinsights.mpr fun hq => ⟨hi hq, fun _ => hs⟩⟩

end

/-! ### Replies without a payload -/

lemma extract_of_none (question : Question) {reply : String}
    (h : ∀ c ∈ candidates reply.toList, Payload.ofText? c.2 = none) :
    extract question reply = ⟨prosePayload question reply.toList, .textHeuristics⟩ := by
  rw [extract_eq, List.findSome?_eq_none_iff.mpr fun c hc => by rw [h c hc, Option.map_none]]
  rfl

/-- **A reply without a payload** is read as prose. Its summary has at most 500 characters, and
ends with dots if it was cut; there is a suggestion, and for a snippet there is an insight. They
all say something if and only if the text picked for the summary is not hollow, and no bullet that
is taken from below a header is. -/
theorem extract_prose (question : Question) {reply : String}
    (h : ∀ c ∈ candidates reply.toList, Payload.ofText? c.2 = none) :
    ∃ payload summary, extract question reply = ⟨payload, .textHeuristics⟩ ∧
      payload.summary = some (String.ofList summary) ∧ summary.length ≤ 500 ∧
      ((clean (summarySource reply.toList)).length ≤ 500 →
        summary = clean (summarySource reply.toList)) ∧
      (500 < (clean (summarySource reply.toList)).length →
        summary = (clean (summarySource reply.toList)).take 497 ++ ['.', '.', '.']) ∧
      payload.suggestions ≠ [] ∧ (payload.insights = [] ↔ question = .report) ∧
      (Telling payload ↔ ¬ Hollow (summarySource reply.toList) ∧
        (arrayItems reply.toList ≠ [] ∨ [] ∉ bulletsBelow suggestionWords reply.toList) ∧
        (question = .snippet → [] ∉ bulletsBelow insightWords reply.toList)) := by
  refine ⟨_, proseSummary reply.toList, extract_of_none question h, rfl,
    length_truncate (by decide) _, fun hle => ?_, fun hlt => ?_, ?_, ?_,
    telling_prosePayload_iff question⟩
  · rw [proseSummary_eq, truncate, maxSummary, if_pos hle]
  · rw [proseSummary_eq, truncate, maxSummary, if_neg (Nat.not_le.mpr hlt)]
  · simpa [prosePayload] using proseSuggestions_ne_nil
  · have hinsights : proseInsights reply.toList ≠ [] :=
      firstNonEmpty_ne_nil (List.cons_ne_nil (proseSummary reply.toList) []) (by simp)
    cases question <;> simp [prosePayload, hinsights]

def review (firstBullet : String) : String :=
  "The hooks look fine overall.\n\nSuggestions:\n- " ++ firstBullet ++ "\n- Add keys"

theorem extract_prose_of_review :
    (∀ c ∈ candidates (review "Use **const**").toList, Payload.ofText? c.2 = none) ∧
    Telling (extract .snippet (review "Use **const**")).payload := by
  have h : ∀ c ∈ candidates (review "Use **const**").toList, Payload.ofText? c.2 = none := by
    decide +kernel
  obtain ⟨payload, _, hextract, -, -, -, -, -, -, htelling⟩ := extract_prose .snippet h
  rw [hextract]
  refine ⟨h, htelling.mpr ⟨?_, .inr ?_, fun _ => ?_⟩⟩
  · rw [← clean_eq_nil_iff]
    decide +kernel
  · decide +kernel
  · decide +kernel

/-- A bullet of emphasis alone below a header becomes an empty suggestion, also if it is the only
one, and a reply of emphasis alone has an empty summary. -/
theorem extract_tells_nothing :
    (¬ Blank (review "**").toList ∧
      (∀ c ∈ candidates (review "**").toList, Payload.ofText? c.2 = none) ∧
      (extract .report (review "**")).payload.suggestions = ["", "Add keys"]) ∧
    (¬ Blank "Suggestions:\n- **".toList ∧
      (∀ c ∈ candidates "Suggestions:\n- **".toList, Payload.ofText? c.2 = none) ∧
      (extract .report "Suggestions:\n- **").payload.suggestions = [""]) ∧
    ¬ Blank "**".toList ∧ (∀ c ∈ candidates "**".toList, Payload.ofText? c.2 = none) ∧
    (extract .report "**").payload.summary = some "" := by
  refine ⟨⟨not_blank_of_mem (c := 'T') (by decide) (by decide), ?_⟩,
    ⟨not_blank_of_mem (c := 'S') (by decide) (by decide), ?_⟩,
    not_blank_of_mem (c := '*') (by decide) (by decide), ?_⟩
  all_goals decide +kernel

end CodeHealth.Proofs.ProseReading
