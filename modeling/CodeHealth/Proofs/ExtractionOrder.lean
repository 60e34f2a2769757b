import CodeHealth.Proofs.ReplyPlaces

/-!
Which text of a reply is taken for its payload.

The places of a reply are looked at in a fixed order, and the first text in one of them that is an
object with a payload counts. So what is taken is written in the reply and stands in no later place
than any other such text. A reply is read as prose if and only if none of its places holds one.
-/

namespace CodeHealth.Proofs.ExtractionOrder

open CodeHealth.Advice CodeHealth.Json CodeHealth.Text CodeHealth.Proofs.ReplyText
open CodeHealth.Proofs.FlatBlocks CodeHealth.Proofs.PayloadRecovery CodeHealth.Proofs.ReplyPlaces

/-- A text that is an object with a payload. -/
def Acceptable (t : List Char) : Prop :=
  ∃ fields, read? t = some (.object fields) ∧ HasPayload fields

/-- The texts of a reply in the place that a strategy looks at. -/
inductive Candidate (text : List Char) : Strategy → List Char → Prop
  | whole : Candidate text .wholeResponse (trim text)
  | fenced {body : List Char} : Fenced text body → Candidate text .fencedBlock (trim body)
  | outer {block : List Char} : OuterBlock text block → Candidate text .outerBraces block
  | flat {x : List Char} : Braceless x → '\x7b' :: (x ++ ['\x7d']) <:+: text →
      Candidate text .balancedFragment ('\x7b' :: (x ++ ['\x7d']))

/-- How many places are looked at before the one of a strategy. -/
def stage : Strategy → ℕ
  | .wholeResponse => 0
  | .fencedBlock => 1
  | .outerBraces => 2
  | .balancedFragment => 3
  | .textHeuristics => 4

section

variable {text t : List Char} {s : Strategy}

lemma acceptable_iff : Acceptable t ↔ ∃ payload, Payload.ofText? t = some payload := by
  simp only [ofText?_eq_some_iff]
  constructor
  · rintro ⟨fields, hread, hp⟩
    exact ⟨_, fields, hread, hp, rfl⟩
  · rintro ⟨_, fields, hread, hp, -⟩
    exact ⟨fields, hread, hp⟩

/-- **What is tried is what stands in the places of a reply**, and all of it. -/
theorem mem_candidates_iff : (s, t) ∈ candidates text ↔ Candidate text s t := by
  have hfenced : (∃ b, fencedBlock? text = some b ∧ trim b = t) ↔
      ∃ body, Fenced text body ∧ trim body = t := by
    rw [← fencedBlock?_eq_some_iff, Option.map_eq_some_iff]
  simp only [candidates, List.cons_append, List.mem_cons, List.mem_append, or_assoc,
    Prod.mk.injEq, Option.mem_toList, Option.map_eq_some_iff, List.mem_map]
  constructor
  · rintro (⟨rfl, rfl⟩ | ⟨b, hb, rfl, ht⟩ | ⟨b, hb, rfl, rfl⟩ | ⟨b, hb, rfl, rfl⟩)
    · exact .whole
    · obtain ⟨body, hbody, rfl⟩ := hfenced.mp ⟨b, hb, ht⟩
      exact .fenced hbody
    · exact .outer (outerBlock?_eq_some_iff.mp hb)
    · obtain ⟨x, hx, rfl, hin⟩ := mem_flatBlocks_iff.mp hb
      exact .flat hx hin
  · intro h
    cases h with
    | whole => exact .inl ⟨rfl, rfl⟩
    | fenced hbody =>
      obtain ⟨b, hb, ht⟩ := hfenced.mpr ⟨_, hbody, rfl⟩
      exact .inr (.inl ⟨b, hb, rfl, ht⟩)
    | outer hb => exact .inr (.inr (.inl ⟨_, outerBlock?_eq_some_iff.mpr hb, rfl, rfl⟩))
    | flat hx hin =>
      exact .inr (.inr (.inr ⟨_, mem_flatBlocks_iff.mpr ⟨_, hx, rfl, hin⟩, rfl, rfl⟩))

lemma pairwise_candidates (text : List Char) :
    (candidates text).Pairwise fun c d => stage c.1 ≤ stage d.1 := by
  rw [candidates]
  cases fencedBlock? text <;> cases outerBlock? text <;>
    simp [stage, List.pairwise_map, List.pairwise_of_forall]

lemma infix_trim (t : List Char) : trim t <:+: t := by
  obtain ⟨a, b, -, -, ht⟩ := exists_trim t
  exact ⟨a, b, by rw [List.append_assoc, ← ht]⟩

lemma Candidate.isInfix (h : Candidate text s t) : t <:+: text := by
  cases h with
  | whole => exact infix_trim text
  | @fenced body h =>
    obtain ⟨p, lang, rest, -, rfl, -, -, ⟨left, rfl⟩, -⟩ := h
    refine (infix_trim body).trans ⟨p ++ (fence ++ lang), fence ++ left, ?_⟩
    simp
  | outer h =>
    obtain ⟨p, v, left, rfl, -⟩ := h
    exact ⟨p, left, by simp⟩
  | flat _ h => exact h

end

/-- **The first object with a payload counts**: what a reply says is read from a part of it, and no
earlier place holds one. It is read as prose if and only if no place holds one. -/
theorem extract_first_acceptable (question : Question) (reply : String) :
    ((extract question reply).strategy ≠ .textHeuristics →
      ∃ part fields, Candidate reply.toList (extract question reply).strategy part ∧
        part <:+: reply.toList ∧ read? part = some (.object fields) ∧ HasPayload fields ∧
        (extract question reply).payload = payloadOf fields ∧
        ∀ s t, stage s < stage (extract question reply).strategy →
          Candidate reply.toList s t → ¬ Acceptable t) ∧
    ((extract question reply).strategy = .textHeuristics ↔
      ∀ s t, Candidate reply.toList s t → ¬ Acceptable t) := by
  rw [extract_eq]
  cases hfind : (candidates reply.toList).findSome? fun c =>
      (Payload.ofText? c.2).map (Extraction.mk · c.1) with
  | none =>
    rw [Option.getD_none]
    refine ⟨fun h => absurd rfl h, fun _ s t ht hacc => ?_, fun _ => rfl⟩
    obtain ⟨payload, hp⟩ := acceptable_iff.mp hacc
    have hno := List.findSome?_eq_none_iff.mp hfind (s, t) (mem_candidates_iff.mpr ht)
    simp [hp] at hno
  | some e =>
    obtain ⟨before, ⟨s, part⟩, after, hsplit, he, hbefore⟩ := List.findSome?_eq_some_iff.mp hfind
    obtain ⟨payload, hp, rfl⟩ := Option.map_eq_some_iff.mp he
    obtain ⟨fields, hread, hpayload, rfl⟩ := ofText?_eq_some_iff.mp hp
    have hmem : (s, part) ∈ candidates reply.toList := by simp [hsplit]
    have hcand : Candidate reply.toList s part := mem_candidates_iff.mp hmem
    rw [Option.getD_some]
    refine ⟨fun _ => ⟨part, fields, hcand, hcand.isInfix, hread, hpayload, rfl, ?_⟩, ?_, ?_⟩
    · -- what stands in an earlier place was tried before
      intro s' t hstage ht hacc
      obtain ⟨payload, hp'⟩ := acceptable_iff.mp hacc
      have hpair := pairwise_candidates reply.toList
      have hmem' := mem_candidates_iff.mpr ht
      rw [hsplit, List.pairwise_append, List.pairwise_cons] at hpair
      rw [hsplit, List.mem_append, List.mem_cons] at hmem'
      rcases hmem' with h | h | h
      · have hno := hbefore (s', t) h
        simp [hp'] at hno
      · obtain ⟨rfl, -⟩ := Prod.mk.inj h
        exact absurd hstage (lt_irrefl _)
      · exact absurd hstage (Nat.not_lt.mpr (hpair.2.1.1 (s', t) h))
    · rintro rfl
      cases hcand
    · intro h
      exact absurd ⟨fields, hread, hpayload⟩ (h s part hcand)

/-- A reply with an object that is no payload in front of one that is. -/
def configReply : String := "Config \x7b\"debug\": true\x7d and \x7b\"summary\": \"Fine.\"\x7d."

theorem extract_first_acceptable_config :
    (extract .report configReply).strategy ≠ .textHeuristics ∧
    ∃ part fields, Candidate configReply.toList (extract .report configReply).strategy part ∧
      part <:+: configReply.toList ∧ read? part = some (.object fields) ∧ HasPayload fields ∧
      (extract .report configReply).payload = payloadOf fields ∧
      ∀ s t, stage s < stage (extract .report configReply).strategy →
        Candidate configReply.toList s t → ¬ Acceptable t := by
  have hstrategy : (extract .report configReply).strategy ≠ .textHeuristics := by
    decide +kernel
  exact ⟨hstrategy, (extract_first_acceptable .report configReply).1 hstrategy⟩

end CodeHealth.Proofs.ExtractionOrder
