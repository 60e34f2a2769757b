import CodeHealth.Proofs.FlatBlocks

/-!
Payloads behind other objects.

A reply may hold several objects amid its prose, of which only the last one is a payload. Its first
block of braces is no payload then, and the search goes on with the blocks that have no brace within
them. So the payload is found if its own text has no other braces than those around it; a brace
within one of its strings hides it, and the reply is read as prose.
-/

namespace CodeHealth.Proofs.DecoyObjects

open CodeHealth.Advice CodeHealth.Json CodeHealth.Text CodeHealth.Proofs.JsonText
open CodeHealth.Proofs.JsonLeaves CodeHealth.Proofs.JsonReader CodeHealth.Proofs.BraceScan
open CodeHealth.Proofs.ReplyText CodeHealth.Proofs.PayloadRecovery CodeHealth.Proofs.FlatBlocks

/-- An object in a reply, and the prose in front of it. -/
structure Piece where
  prose : List Char
  object : List Char
  fields : List (String × Json)

/-- Text in which neither an object nor a block of code may stand. -/
def Prose (w : List Char) : Prop := Braceless w ∧ '`' ∉ w

/-- Prose, and an object of scalars, strings and arrays of strings, whatever stands in its strings
but for a fence. -/
structure Piece.Flat (piece : Piece) : Prop where
  prose : Prose piece.prose
  read : read? piece.object = some (.object piece.fields)
  flat : piece.fields.all (fun field => isFlat field.2) = true
  fence : ¬ fence <:+: piece.object

/-- Pieces one behind the other, and what stands after them. -/
def joined (pieces : List Piece) (after : List Char) : List Char :=
  pieces.flatMap (fun piece => piece.prose ++ piece.object) ++ after

/-- An object with no braces but the two around it. -/
def Lone (object : List Char) : Prop := object.count '\x7b' = 1 ∧ object.count '\x7d' = 1

instance (object : List Char) : Decidable (Lone object) := inferInstanceAs (Decidable (_ ∧ _))

/-! ### The blocks of a piece -/

section

variable {piece : Piece}

lemma Piece.Flat.written (h : piece.Flat) : ∃ ws u ws', Spaces ws ∧
    Written depthLimit (.value (.object piece.fields)) u ∧ Spaces ws' ∧
    piece.object = ws ++ (u ++ ws') :=
  read?_eq_some_iff.mp h.read

lemma closed_object {d : ℕ} {fields : List (String × Json)} {u : List Char}
    (h : Written d (.value (.object fields)) u) : Closed u := by
  obtain ⟨_, v, ws, -, -, rfl⟩ := exists_fields_of_object h
  simpa using closed_close ('\x7b' :: (v ++ ws))

lemma flatBlocks_spaces {ws u ws' : List Char} (hws : Spaces ws) (hu : Closed u)
    (hws' : Spaces ws') : flatBlocks (ws ++ (u ++ ws')) = flatBlocks u := by
  have hnil := flatBlocks_braceless (braceless_of_spaces hws)
  have hnil' := flatBlocks_braceless (braceless_of_spaces hws')
  rw [closed_of_braceless (braceless_of_spaces hws), hu, hnil, hnil', List.nil_append,
    List.append_nil]

lemma Piece.Flat.closed (h : piece.Flat) : Closed piece.object := by
  obtain ⟨ws, u, ws', hws, hu, hws', hobject⟩ := h.written
  rw [hobject]
  exact (closed_of_braceless (braceless_of_spaces hws)).append
    ((closed_object hu).append (closed_of_braceless (braceless_of_spaces hws')))

lemma Piece.Flat.ofText?_block (h : piece.Flat) (hno : ¬ HasPayload piece.fields) {f : List Char}
    (hf : f ∈ flatBlocks piece.object) : Payload.ofText? f = none := by
  obtain ⟨ws, u, ws', hws, hu, hws', hobject⟩ := h.written
  rw [hobject, flatBlocks_spaces hws (closed_object hu) hws'] at hf
  by_contra hne
  obtain ⟨payload, hp⟩ := Option.ne_none_iff_exists'.mp hne
  rw [eq_of_mem_flatBlocks hu h.flat hf hp,
    ofText?_of_not_hasPayload (read?_of_written hu) hno] at hp
  cases hp

lemma count_of_spaces {ws : List Char} (h : Spaces ws) :
    ws.count '\x7b' = 0 ∧ ws.count '\x7d' = 0 := by
  obtain ⟨ho, hc⟩ := braceless_of_spaces h
  exact ⟨List.count_eq_zero.mpr ho, List.count_eq_zero.mpr hc⟩

/-- **The blocks of an object that is a payload** hold the payload if and only if no brace stands
within the object. -/
lemma Piece.Flat.findSome?_blocks (h : piece.Flat) (hpayload : HasPayload piece.fields) :
    (flatBlocks piece.object).findSome? Payload.ofText? =
      if Lone piece.object then some (payloadOf piece.fields) else none := by
  obtain ⟨ws, u, ws', hws, hu, hws', hobject⟩ := h.written
  obtain ⟨_, v, ws₁, -, -, rfl⟩ := exists_fields_of_object hu
  have hlone : Lone piece.object ↔ Braceless (v ++ ws₁) := by
    have hopen : piece.object.count '\x7b' = (v ++ ws₁).count '\x7b' + 1 := by
      simp [hobject, count_of_spaces hws, count_of_spaces hws', Nat.add_assoc]
    have hclose : piece.object.count '\x7d' = (v ++ ws₁).count '\x7d' + 1 := by
      simp [hobject, count_of_spaces hws, count_of_spaces hws', Nat.add_assoc]
    rw [Lone, hopen, hclose, Nat.add_eq_right, Nat.add_eq_right, List.count_eq_zero,
      List.count_eq_zero, Braceless]
  rw [hobject, flatBlocks_spaces hws (closed_object hu) hws', ← hobject]
  split_ifs with hone
  · have hblock := flatBlocks_block (hlone.mp hone)
    rw [List.append_assoc] at hblock
    rw [hblock, List.findSome?_singleton, ofText?_eq (read?_of_written hu) hpayload]
  · -- a block that is a payload would be the object, which has a brace within
    refine List.findSome?_eq_none_iff.mpr fun f hf => ?_
    by_contra hne
    obtain ⟨payload, hp⟩ := Option.ne_none_iff_exists'.mp hne
    obtain ⟨a, x, b, hx, -, hfx⟩ := mem_flatBlocks hf
    have hfu := eq_of_mem_flatBlocks hu h.flat hf hp
    refine hone (hlone.mpr ?_)
    obtain rfl : x = v ++ ws₁ := by simpa [← List.append_assoc] using hfx.symm.trans hfu
    exact hx

/-! ### A reply of several pieces -/

lemma joined_cons (piece : Piece) (pieces : List Piece) (after : List Char) :
    joined (piece :: pieces) after = piece.prose ++ (piece.object ++ joined pieces after) := by
  simp [joined]

lemma flatBlocks_joined {pieces : List Piece} {after : List Char}
    (hflat : ∀ piece ∈ pieces, piece.Flat) (hafter : Prose after) :
    flatBlocks (joined pieces after) = pieces.flatMap fun piece => flatBlocks piece.object := by
  induction pieces with
  | nil => exact flatBlocks_braceless hafter.1
  | cons piece pieces ih =>
    rw [List.forall_mem_cons] at hflat
    rw [joined_cons, closed_of_braceless hflat.1.prose.1, flatBlocks_braceless hflat.1.prose.1,
      hflat.1.closed, ih hflat.2]
    rfl

lemma fence_infix_append {u v : List Char} (hlast : '`' ∉ u.getLast?) (h : fence <:+: u ++ v) :
    fence <:+: u ∨ fence <:+: v := by
  induction u with
  | nil => exact .inr h
  | cons c u ih =>
    rw [List.cons_append, List.infix_cons_iff] at h
    rcases h with h | h
    · exact .inl (fence_prefix_of_append (List.cons_ne_nil c u) hlast h).isInfix
    · have hlast' : '`' ∉ u.getLast? := by
        cases u with
        | nil => simp
        | cons d u => simpa using hlast
      exact (ih hlast' h).imp_left List.infix_cons

lemma not_fence_of_prose {w : List Char} (h : Prose w) : ¬ fence <:+: w :=
  fun hf => h.2 (hf.subset (by simp [fence]))

lemma Piece.Flat.last (h : piece.Flat) : '`' ∉ piece.object.getLast? := by
  obtain ⟨ws, u, ws', -, hu, hws', hobject⟩ := h.written
  obtain ⟨_, v, ws₁, -, -, rfl⟩ := exists_fields_of_object hu
  rw [hobject]
  rcases List.eq_nil_or_concat ws' with rfl | ⟨ws', c, rfl⟩
  · simp [List.getLast?_append, List.getLast?_cons]
  · have hc : c ≠ '`' := by
      rintro rfl
      have hspace : isSpace '`' = true := hws' _ (by simp)
      exact absurd hspace (by decide)
    simp [List.getLast?_append, List.getLast?_cons, hc]

lemma not_fence_joined {pieces : List Piece} {after : List Char}
    (hflat : ∀ piece ∈ pieces, piece.Flat) (hafter : Prose after) :
    ¬ fence <:+: joined pieces after := by
  induction pieces with
  | nil => exact not_fence_of_prose hafter
  | cons piece pieces ih =>
    rw [List.forall_mem_cons] at hflat
    intro h
    rw [joined_cons] at h
    rcases fence_infix_append (fun hl => hflat.1.prose.2 (List.mem_of_getLast? hl)) h with h | h
    · exact not_fence_of_prose hflat.1.prose h
    rcases fence_infix_append hflat.1.last h with h | h
    · exact hflat.1.fence h
    · exact ih hflat.2 h

end

lemma extract_blocks (question : Question) {text : List Char}
    (hwhole : Payload.ofText? (trim text) = none) (hfenced : fencedBlock? text = none)
    (houter : (outerBlock? text).bind Payload.ofText? = none) :
    extract question (String.ofList text) =
      (((flatBlocks text).findSome? Payload.ofText?).map (Extraction.mk · .balancedFragment)).getD
        ⟨prosePayload question text, .textHeuristics⟩ := by
  have houter' : (((outerBlock? text).map fun t => (Strategy.outerBraces, t)).toList.findSome?
      fun c => (Payload.ofText? c.2).map (Extraction.mk · c.1)) = none := by
    cases hblock : outerBlock? text with
    | none => rfl
    | some t => simpa [hblock] using houter
  have hblocks : (((flatBlocks text).map fun t => (Strategy.balancedFragment, t)).findSome?
      fun c => (Payload.ofText? c.2).map (Extraction.mk · c.1)) =
      ((flatBlocks text).findSome? Payload.ofText?).map (Extraction.mk · .balancedFragment) := by
    rw [List.findSome?_map, List.map_findSome?]
    rfl
  rw [extract_eq, String.toList_ofList]
  simp only [candidates, hfenced, Option.map_none, Option.toList_none, List.cons_append,
    List.nil_append, List.findSome?_cons, hwhole, List.findSome?_append, houter', Option.none_or,
    hblocks]

/-- **A payload behind other objects** is found if and only if no brace stands within it. -/
theorem extract_behind_decoys (question : Question) {decoys : List Piece} {last : Piece}
    {after : List Char} (hdecoys : decoys ≠ []) (hflat : ∀ piece ∈ decoys ++ [last], piece.Flat)
    (hafter : Prose after) (hno : ∀ piece ∈ decoys, ¬ HasPayload piece.fields)
    (hlast : HasPayload last.fields) :
    extract question (String.ofList (joined (decoys ++ [last]) after)) =
      if Lone last.object then ⟨payloadOf last.fields, .balancedFragment⟩
      else ⟨prosePayload question (joined (decoys ++ [last]) after), .textHeuristics⟩ := by
  obtain ⟨first, others, rfl⟩ := List.exists_cons_of_ne_nil hdecoys
  have hfirst : first.Flat := hflat first (by simp)
  have hlastFlat : last.Flat := hflat last (by simp)
  obtain ⟨ws, u, ws', hws, hu, hws', hobject⟩ := hfirst.written
  obtain ⟨rest, hrest⟩ : ∃ rest, rest = joined (others ++ [last]) after := ⟨_, rfl⟩
  have htext : joined (first :: others ++ [last]) after =
      first.prose ++ (ws ++ (u ++ (ws' ++ rest))) := by
    rw [List.cons_append, joined_cons, hobject, hrest, List.append_assoc, List.append_assoc]
  have hnone : Payload.ofText? u = none :=
    ofText?_of_not_hasPayload (read?_of_written hu) (hno first (by simp))
  have hwhole : Payload.ofText? (trim (joined (first :: others ++ [last]) after)) = none := by
    -- the last object is no blank
    have hbrace : '\x7b' ∈ rest := by
      obtain ⟨ws₁, u₁, ws₁', -, hu₁, -, hobject₁⟩ := hlastFlat.written
      obtain ⟨_, v, ws₂, -, -, rfl⟩ := exists_fields_of_object hu₁
      simp [hrest, joined, hobject₁]
    rw [htext]
    exact ofText?_trim_amid hws hu hfirst.prose.1.1 fun h => absurd (h.2 _ hbrace) (by decide)
  have hfenced : fencedBlock? (joined (first :: others ++ [last]) after) = none := by
    rw [fencedBlock?, splitAtMark?_eq_none (by simp [fence]) (not_fence_joined hflat hafter)]
  have houter : (outerBlock? (joined (first :: others ++ [last]) after)).bind Payload.ofText? =
      none := by
    have hbrace : '\x7b' ∉ first.prose ++ ws := brace_notMem_append hfirst.prose.1.1 hws
    rw [htext, ← List.append_assoc, outerBlock?_append hbrace hu]
    exact hnone
  have hdecoyBlocks : (((first :: others).flatMap fun piece => flatBlocks piece.object).findSome?
      Payload.ofText?) = none := by
    refine List.findSome?_eq_none_iff.mpr fun f hf => ?_
    obtain ⟨piece, hpiece, hf⟩ := List.mem_flatMap.mp hf
    exact (hflat piece (List.mem_append_left _ hpiece)).ofText?_block (hno piece hpiece) hf
  have hblocks : (flatBlocks (joined (first :: others ++ [last]) after)).findSome? Payload.ofText? =
      if Lone last.object then some (payloadOf last.fields) else none := by
    rw [flatBlocks_joined hflat hafter, List.flatMap_append, List.findSome?_append, hdecoyBlocks,
      Option.none_or, List.flatMap_singleton, hlastFlat.findSome?_blocks hlast]
  rw [extract_blocks question hwhole hfenced houter, hblocks]
  split_ifs <;> rfl

def settings : Piece where
  prose := "Config ".toList
  object := "\x7b\"debug\": true\x7d".toList
  fields := [("debug", .bool true)]

def answer (summary : String) : Piece where
  prose := " and ".toList
  object := "\x7b\"summary\": \"".toList ++ (summary.toList ++ "\"\x7d".toList)
  fields := [("summary", .string summary)]

lemma flat_settings : settings.Flat where
  prose := by unfold Prose Braceless; decide
  read := by cbv
  flat := rfl
  fence := by decide

lemma not_hasPayload_settings : ¬ HasPayload settings.fields := by
  change ¬ HasPayload [("debug", .bool true)]
  simp [HasPayload, field?]

lemma hasPayload_answer {summary : String} (h : isBlankString summary = false) :
    HasPayload (answer summary).fields := by
  change HasPayload [("summary", .string summary)]
  exact .inl ⟨summary, by simp [field?], h⟩

lemma flat_answer {summary : String} (hread : read? (answer summary).object =
      some (.object (answer summary).fields)) (hfence : ¬ fence <:+: (answer summary).object) :
    (answer summary).Flat where
  prose := by change Prose " and ".toList; unfold Prose Braceless; decide
  read := hread
  flat := rfl
  fence := hfence

theorem extract_behind_settings :
    (∀ piece ∈ [settings, answer "Keep it."], piece.Flat) ∧
    extract .report (String.ofList (joined [settings, answer "Keep it."] ".".toList)) =
      ⟨⟨some "Keep it.", [], []⟩, .balancedFragment⟩ := by
  have hflat : (answer "Keep it.").Flat := flat_answer (by cbv) (by decide)
  have hafter : Prose ".".toList := by unfold Prose Braceless; decide
  have hpieces : ∀ piece ∈ [settings] ++ [answer "Keep it."], piece.Flat :=
    List.forall_mem_cons.mpr ⟨flat_settings, List.forall_mem_singleton.mpr hflat⟩
  have hno : ∀ piece ∈ [settings], ¬ HasPayload piece.fields :=
    List.forall_mem_singleton.mpr not_hasPayload_settings
  refine ⟨hpieces, (extract_behind_decoys .report (List.cons_ne_nil _ _) hpieces hafter hno
    (hasPayload_answer (by decide))).trans ?_⟩
  decide

/-- With a pair of braces in the summary, the payload is lost. -/
theorem extract_loses_braced_summary :
    (∀ piece ∈ [settings, answer "Use \x7b\x7d here."], piece.Flat) ∧ Prose ".".toList ∧
    ¬ HasPayload settings.fields ∧ HasPayload (answer "Use \x7b\x7d here.").fields ∧
    (extract .report (String.ofList
      (joined [settings, answer "Use \x7b\x7d here."] ".".toList))).payload ≠
      payloadOf (answer "Use \x7b\x7d here.").fields := by
  have hflat : (answer "Use \x7b\x7d here.").Flat := flat_answer (by cbv) (by decide)
  refine ⟨List.forall_mem_cons.mpr ⟨flat_settings, List.forall_mem_singleton.mpr hflat⟩,
    by unfold Prose Braceless; decide, not_hasPayload_settings, hasPayload_answer (by decide), ?_⟩
  decide +kernel

end CodeHealth.Proofs.DecoyObjects
