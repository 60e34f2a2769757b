import CodeHealth.Advice.Payload
import CodeHealth.Json.Scan
import Mathlib.Data.List.Infix
import Mathlib.Data.List.TakeWhile

/-!
Parts of replies: blanks around a text, and the block between two fences.
-/

namespace CodeHealth.Proofs.ReplyText

open CodeHealth.Advice CodeHealth.Text

/-! ### Blanks around a text -/

def Blank (cs : List Char) : Prop := ∀ c ∈ cs, isBlank c = true

lemma blank_append {a b : List Char} : Blank (a ++ b) ↔ Blank a ∧ Blank b := by
  simp [Blank, or_imp, forall_and]

lemma isBlank_of_isSpace {c : Char} (h : Json.isSpace c = true) : isBlank c = true := by
  simp only [Json.isSpace, Bool.or_eq_true, beq_iff_eq] at h
  rcases h with ((rfl | rfl) | rfl) | rfl <;> decide

/-- A text that neither starts nor ends with a blank. -/
structure Solid (m : List Char) : Prop where
  head : ∃ c ∈ m.head?, isBlank c = false
  last : ∃ c ∈ m.getLast?, isBlank c = false

lemma dropWhile_append_solid {p : Char → Bool} {m : List Char} (h : ∃ c ∈ m.head?, p c = false)
    (a b : List Char) : (a ++ (m ++ b)).dropWhile p = a.dropWhile p ++ (m ++ b) := by
  obtain ⟨c, hc, hp⟩ := h
  obtain ⟨t, rfl⟩ := List.head?_eq_some_iff.mp hc
  rw [List.dropWhile_append]
  split
  · next ha => simp [List.isEmpty_iff.mp ha, hp]
  · rfl

lemma trimRight_append_solid {m : List Char} (h : Solid m) (a b : List Char) :
    trimRight (a ++ (m ++ b)) = a ++ (m ++ trimRight b) := by
  have hlast : ∃ c ∈ m.reverse.head?, isBlank c = false := by simpa using h.last
  have := dropWhile_append_solid hlast b.reverse a.reverse
  simp [trimRight, this]

lemma trim_append_solid {m : List Char} (h : Solid m) (a b : List Char) :
    trim (a ++ (m ++ b)) = a.dropWhile isBlank ++ (m ++ trimRight b) := by
  rw [trim, dropWhile_append_solid h.head, trimRight_append_solid h]

lemma dropWhile_blank {a : List Char} (h : Blank a) : a.dropWhile isBlank = [] :=
  List.dropWhile_eq_nil_iff.mpr h

lemma trimRight_blank {b : List Char} (h : Blank b) : trimRight b = [] := by
  have hb : b.reverse.dropWhile isBlank = [] :=
    List.dropWhile_eq_nil_iff.mpr fun c hc => h c (List.mem_reverse.mp hc)
  simp [trimRight, hb]

lemma trim_solid {m a b : List Char} (h : Solid m) (ha : Blank a) (hb : Blank b) :
    trim (a ++ (m ++ b)) = m := by
  rw [trim_append_solid h, dropWhile_blank ha, trimRight_blank hb, List.nil_append, List.append_nil]

lemma stop_of_dropWhile {p : Char → Bool} {cs t : List Char} {c : Char}
    (h : cs.dropWhile p = c :: t) : p c = false := by
  have hstop := List.head?_dropWhile_not p cs
  rw [h] at hstop
  simpa using hstop

/-- What is left behind blanks starts with none, so only blanks leave blanks. -/
lemma blank_of_dropWhile {cs : List Char} (h : Blank (cs.dropWhile isBlank)) : Blank cs := by
  have hnil : cs.dropWhile isBlank = [] := by
    cases hcs : cs.dropWhile isBlank with
    | nil => rfl
    | cons c t =>
      have hc := stop_of_dropWhile hcs
      rw [hcs] at h
      simp [h c List.mem_cons_self] at hc
  exact List.dropWhile_eq_nil_iff.mp hnil

lemma blank_reverse {cs : List Char} : Blank cs.reverse ↔ Blank cs := by simp [Blank]

lemma blank_of_trimRight {cs : List Char} (h : Blank (trimRight cs)) : Blank cs :=
  blank_reverse.mp (blank_of_dropWhile (blank_reverse.mp h))

lemma trim_eq_nil_iff {cs : List Char} : trim cs = [] ↔ Blank cs := by
  constructor
  · intro h
    refine blank_of_dropWhile (blank_of_trimRight ?_)
    rw [← trim, h]
    simp [Blank]
  · intro h
    simp [trim, dropWhile_blank h, trimRight]

lemma exists_trim (t : List Char) : ∃ a b, Blank a ∧ Blank b ∧ t = a ++ (trim t ++ b) := by
  obtain ⟨r, hr⟩ : ∃ r, r = (t.dropWhile isBlank).reverse := ⟨_, rfl⟩
  refine ⟨t.takeWhile isBlank, (r.takeWhile isBlank).reverse, fun c => List.mem_takeWhile_imp,
    fun c hc => List.mem_takeWhile_imp (List.mem_reverse.mp hc), ?_⟩
  have hback : trim t ++ (r.takeWhile isBlank).reverse = t.dropWhile isBlank := by
    rw [trim, trimRight, ← hr, ← List.reverse_append, List.takeWhile_append_dropWhile, hr,
      List.reverse_reverse]
  rw [hback, List.takeWhile_append_dropWhile]

lemma trim_blank_append {w t : List Char} (hw : Blank w) : trim (w ++ t) = trim t := by
  rw [trim, List.dropWhile_append_of_pos hw, ← trim]

/-! ### Fences -/

lemma afterWord?_eq_none {mark cs : List Char} (h : ¬ mark <+: cs) : afterWord? mark cs = none := by
  rw [afterWord?, if_neg (by rwa [List.isPrefixOf_iff_prefix])]

lemma afterWord?_append (mark rest : List Char) : afterWord? mark (mark ++ rest) = some rest := by
  simp [afterWord?]

lemma splitAtMark?_eq_none {mark cs : List Char} (hm : mark ≠ []) (h : ¬ mark <:+: cs) :
    splitAtMark? mark cs = none := by
  induction cs with
  | nil => simp [splitAtMark?, hm]
  | cons c cs ih =>
    have hpre : ¬ mark <+: c :: cs := fun hp => h hp.isInfix
    have htail : ¬ mark <:+: cs := fun hi => h (List.infix_cons hi)
    simp [splitAtMark?, afterWord?_eq_none hpre, ih htail]

lemma fence_prefix_of_append {a rest : List Char} (ha : a ≠ []) (hlast : '`' ∉ a.getLast?)
    (h : fence <+: a ++ rest) : fence <+: a := by
  match a with
  | [] => exact absurd rfl ha
  | [b] =>
    simp only [fence, List.cons_append, List.cons_prefix_cons] at h
    simp [← h.1] at hlast
  | [b, c] =>
    simp only [fence, List.cons_append, List.cons_prefix_cons] at h
    simp [← h.2.1] at hlast
  | b :: c :: d :: a => simpa [fence, List.cons_prefix_cons] using h

lemma splitAtMark?_fence {a : List Char} (ha : ¬ fence <:+: a) (hlast : '`' ∉ a.getLast?)
    (rest : List Char) : splitAtMark? fence (a ++ (fence ++ rest)) = some (a, rest) := by
  induction a with
  | nil =>
    have := afterWord?_append fence rest
    simp_all [fence, splitAtMark?]
  | cons c a ih =>
    have hpre : ¬ fence <+: c :: (a ++ (fence ++ rest)) := fun hp =>
      ha (fence_prefix_of_append (List.cons_ne_nil c a) hlast hp).isInfix
    have htail : ¬ fence <:+: a := fun hi => ha (List.infix_cons hi)
    have hlast' : '`' ∉ a.getLast? := by
      cases a with
      | nil => simp
      | cons d a => simpa using hlast
    simp [splitAtMark?, afterWord?_eq_none hpre, ih htail hlast']

lemma dropLanguage_append {lang : List Char} (h : ∀ c ∈ lang, isLanguageChar c = true)
    (rest : List Char) : dropLanguage (lang ++ '\n' :: rest) = rest := by
  have hbreak : isLanguageChar '\n' = false := by decide
  rw [dropLanguage, List.dropWhile_append_of_pos h, List.dropWhile_cons_of_neg (by simp [hbreak])]
  simp [isIndent, dropOne]

/-- **The first block between fences** is found behind a text without backticks. -/
theorem fencedBlock?_append {p lang body : List Char} (hp : '`' ∉ p)
    (hlang : ∀ c ∈ lang, isLanguageChar c = true) (hbody : ¬ fence <:+: body) (s : List Char) :
    fencedBlock? (p ++ (fence ++ (lang ++ '\n' :: (body ++ '\n' :: (fence ++ s))))) =
      some (body ++ ['\n']) := by
  have hpre : ¬ fence <:+: p := fun h => hp (h.subset (by simp [fence]))
  have hsplit := splitAtMark?_fence hpre fun h => hp (List.mem_of_getLast? h)
  have hbreak : ¬ fence <:+: body ++ ['\n'] := by
    rw [List.infix_concat_iff]
    rintro (h | h)
    · have hlast := h.getLast (by simp [fence])
      simp [fence] at hlast
    · exact hbody h
  have hsplit' := splitAtMark?_fence hbreak (by simp) s
  rw [fencedBlock?, hsplit]
  rw [List.append_assoc, List.singleton_append] at hsplit'
  simp [dropLanguage_append hlang, hsplit']

end CodeHealth.Proofs.ReplyText
