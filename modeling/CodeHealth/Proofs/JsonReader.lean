import CodeHealth.Proofs.JsonLeaves

/-!
Strict reading accepts the texts of the grammar and no others.

What was read is written as the grammar says, by induction on the fuel. Conversely, what is written
so is read back whatever follows it, by induction on the derivation. The fuel is twice the length
of the text: a container takes one step for itself and one for the end of its parts, and it has two
brackets to pay with.
-/

namespace CodeHealth.Proofs.JsonReader

open CodeHealth.Json CodeHealth.Proofs.JsonText CodeHealth.Proofs.JsonLeaves

variable {cs t r u v ws : List Char} {d fuel : ℕ} {first : Bool} {j : Json}

/-! ### Between the parts -/

lemma exists_spaces_of_skipSpace (h : skipSpace cs = r) : ∃ ws, Spaces ws ∧ cs = ws ++ r :=
  h ▸ exists_spaces cs

lemma sep_of_nextItem (h : nextItem first cs = .ok (some r)) : ∃ s, Sep first s ∧ cs = s ++ r := by
  unfold nextItem at h
  split at h
  · cases h
  · cases h
  · next rest hskip =>
    obtain ⟨ws, hws, rfl⟩ := exists_spaces_of_skipSpace hskip
    cases first with
    | true =>
      cases h
      exact ⟨ws, .first hws, rfl⟩
    | false =>
      simp only [Bool.false_eq_true, if_false] at h
      split at h
      · cases h
      · cases h
      · next hrest =>
        obtain ⟨ws', hws', hr⟩ := exists_spaces rest
        cases h
        exact ⟨ws ++ ',' :: ws', .next hws hws', by simp [← hr]⟩
  · next rest _ _ hskip =>
    obtain ⟨ws, hws, hcs⟩ := exists_spaces cs
    cases first with
    | true =>
      cases h
      exact ⟨ws, .first hws, hcs⟩
    | false => cases h

lemma spaces_of_endList (h : endList cs = .ok r) : ∃ ws, Spaces ws ∧ cs = ws ++ ']' :: r := by
  unfold endList at h
  split at h
  · cases h
  · next hskip =>
    cases h
    exact exists_spaces_of_skipSpace hskip
  · split at h <;> cases h
  · cases h

lemma sep_of_nextName (h : nextName first cs = .ok (some r)) :
    ∃ s, Sep first s ∧ cs = s ++ '"' :: r := by
  unfold nextName at h
  split at h
  · cases h
  · cases h
  · next c rest _ hskip =>
    obtain ⟨ws, hws, rfl⟩ := exists_spaces_of_skipSpace hskip
    cases first with
    | true =>
      simp only [if_true] at h
      split at h
      · next hc =>
        cases h
        exact ⟨ws, .first hws, by rw [hc]⟩
      · cases h
    | false =>
      simp only [Bool.false_eq_true, if_false] at h
      split at h
      · next hc =>
        split at h
        · cases h
        · next hrest =>
          obtain ⟨ws', hws', rfl⟩ := exists_spaces_of_skipSpace hrest
          cases h
          exact ⟨ws ++ ',' :: ws', .next hws hws', by simp [hc]⟩
        · cases h
        · cases h
      · cases h

lemma spaces_of_endObject (h : endObject cs = .ok r) : ∃ ws, Spaces ws ∧ cs = ws ++ '\x7d' :: r := by
  unfold endObject at h
  split at h
  · cases h
  · next hskip =>
    cases h
    exact exists_spaces_of_skipSpace hskip
  · cases h
  · cases h

lemma spaces_of_afterColon (h : afterColon cs = .ok r) : ∃ ws, Spaces ws ∧ cs = ws ++ ':' :: r := by
  unfold afterColon at h
  split at h
  · cases h
  · next hskip =>
    cases h
    exact exists_spaces_of_skipSpace hskip
  · cases h

/-! ### What was read is written -/

lemma written_word {w : List Char} {c : Char} {j' : Json}
    (h : (readWord w t).map ((j, ·)) = .ok (j', r)) (hw : Written d (.value j) (c :: w)) :
    ∃ u, c :: t = u ++ r ∧ Written d (.value j') u := by
  obtain ⟨r', hr, h⟩ := map_eq_ok.mp h
  cases h
  exact ⟨c :: w, by rw [readWord_eq_ok.mp hr]; rfl, hw⟩

/-- Reading with so much fuel gives what is written there. -/
def Sound (fuel : ℕ) : Prop :=
  (∀ {d cs j r}, readAny fuel d cs = .ok (j, r) →
    ∃ ws u, Spaces ws ∧ cs = ws ++ (u ++ r) ∧ Written d (.value j) u) ∧
  (∀ {d first cs js r}, readItems fuel d first cs = .ok (js, r) →
    ∃ u, cs = u ++ r ∧ Written d (.items first js) u) ∧
  (∀ {d first cs fs r}, readFields fuel d first cs = .ok (fs, r) →
    ∃ u, cs = u ++ r ∧ Written d (.fields first fs) u)

lemma written_of_readItems {js : List Json} (ih : Sound fuel)
    (h : readItems (fuel + 1) d first cs = .ok (js, r)) :
    ∃ u, cs = u ++ r ∧ Written d (.items first js) u := by
  rw [readItems] at h
  obtain ⟨next, hnext, h⟩ := bind_eq_ok.mp h
  cases next with
  | none =>
    cases h
    exact ⟨[], rfl, .noItems⟩
  | some rest =>
    obtain ⟨⟨j, r₁⟩, hj, h⟩ := bind_eq_ok.mp h
    obtain ⟨⟨js, r₂⟩, hjs, h⟩ := bind_eq_ok.mp h
    cases h
    obtain ⟨s, hs, rfl⟩ := sep_of_nextItem hnext
    obtain ⟨ws, u, hws, rfl, hu⟩ := ih.1 hj
    obtain ⟨v, rfl, hv⟩ := ih.2.1 hjs
    exact ⟨(s ++ ws) ++ (u ++ v), by simp, .item (sep_append hs hws) hu hv⟩

lemma written_of_readFields {fs : List (String × Json)} (ih : Sound fuel)
    (h : readFields (fuel + 1) d first cs = .ok (fs, r)) :
    ∃ u, cs = u ++ r ∧ Written d (.fields first fs) u := by
  rw [readFields] at h
  obtain ⟨next, hnext, h⟩ := bind_eq_ok.mp h
  cases next with
  | none =>
    cases h
    exact ⟨[], rfl, .noFields⟩
  | some rest =>
    obtain ⟨⟨name, r₁⟩, hname, h⟩ := bind_eq_ok.mp h
    obtain ⟨r₂, hcolon, h⟩ := bind_eq_ok.mp h
    obtain ⟨⟨j, r₃⟩, hj, h⟩ := bind_eq_ok.mp h
    obtain ⟨⟨fs, r₄⟩, hfs, h⟩ := bind_eq_ok.mp h
    cases h
    obtain ⟨s, hs, rfl⟩ := sep_of_nextName hnext
    obtain ⟨k, ks, rfl, hk, rfl⟩ := chars_of_readString hname
    obtain ⟨ws, hws, rfl⟩ := spaces_of_afterColon hcolon
    obtain ⟨ws', u, hws', rfl, hu⟩ := ih.1 hj
    obtain ⟨v, rfl, hv⟩ := ih.2.2 hfs
    exact ⟨_, by simp, .field hs hk hws hws' hu hv⟩

lemma written_of_readAny (ih : Sound fuel) (h : readAny (fuel + 1) d cs = .ok (j, r)) :
    ∃ u, skipSpace cs = u ++ r ∧ Written d (.value j) u := by
  rw [readAny] at h
  split at h
  · cases h
  · next hskip => rw [hskip]; exact written_word h .null
  · next hskip => rw [hskip]; exact written_word h .true
  · next hskip => rw [hskip]; exact written_word h .false
  · next hskip =>
    -- a string
    obtain ⟨⟨s, r'⟩, hs, h⟩ := map_eq_ok.mp h
    cases h
    obtain ⟨u, ds, rfl, hu, rfl⟩ := chars_of_readString hs
    exact ⟨'"' :: (u ++ ['"']), by simp [hskip], .string hu⟩
  · next hskip =>
    -- a list and its end, one level deeper
    split at h
    · cases h
    · next hd =>
      obtain ⟨⟨js, r₁⟩, hjs, h⟩ := bind_eq_ok.mp h
      obtain ⟨r₂, hend, h⟩ := bind_eq_ok.mp h
      cases h
      obtain ⟨u, rfl, hu⟩ := ih.2.1 hjs
      obtain ⟨ws, hws, rfl⟩ := spaces_of_endList hend
      obtain ⟨d, rfl⟩ : ∃ d', d = d' + 2 := ⟨d - 2, by omega⟩
      exact ⟨'[' :: (u ++ (ws ++ [']'])), by simp [hskip], .array hu hws⟩
  · next hskip =>
    -- an object and its end
    split at h
    · cases h
    · next hd =>
      obtain ⟨⟨fs, r₁⟩, hfs, h⟩ := bind_eq_ok.mp h
      obtain ⟨r₂, hend, h⟩ := bind_eq_ok.mp h
      cases h
      obtain ⟨u, rfl, hu⟩ := ih.2.2 hfs
      obtain ⟨ws, hws, rfl⟩ := spaces_of_endObject hend
      obtain ⟨d, rfl⟩ : ∃ d', d = d' + 2 := ⟨d - 2, by omega⟩
      exact ⟨'\x7b' :: (u ++ (ws ++ ['\x7d'])), by simp [hskip], .object hu hws⟩
  · next c rest _ _ _ _ _ _ hskip =>
    -- a number, or no value at all
    rw [hskip]
    split at h
    · next hc =>
      obtain ⟨u, rfl, hu⟩ := number_of_readNumber h
      exact ⟨'-' :: u, by rw [hc]; rfl, .negative hu⟩
    · split at h
      · obtain ⟨u, hu, hn⟩ := number_of_readNumber h
        exact ⟨u, hu, .number hn⟩
      · cases h

/-- **What was read is written there.** -/
theorem sound (fuel : ℕ) : Sound fuel := by
  induction fuel with
  | zero =>
    refine ⟨fun h => ?_, fun h => ?_, fun h => ?_⟩
    · simp [readAny, stopBefore] at h
    · simp [readItems, stopBefore] at h
    · simp [readFields, stopBefore] at h
  | succ fuel ih =>
    refine ⟨fun {d cs j r} h => ?_, written_of_readItems ih, written_of_readFields ih⟩
    obtain ⟨ws, hws, hcs⟩ := exists_spaces cs
    obtain ⟨u, hu, hw⟩ := written_of_readAny ih h
    exact ⟨ws, u, hws, by rw [← hu, ← hcs], hw⟩

/-! ### What is written is read -/

lemma skipSpace_spaces_cons {c : Char} (hws : Spaces ws) (hc : isSpace c = false) :
    skipSpace (ws ++ c :: t) = c :: t := by
  rw [skipSpace_append hws, skipSpace_cons hc]

lemma nextItem_append {s : List Char} {c : Char} (hs : Sep first s) (hc : isSpace c = false)
    (hend : c ≠ ']') : nextItem first (s ++ c :: t) = .ok (some (c :: t)) := by
  cases hs with
  | first hws =>
    rw [nextItem, skipSpace_spaces_cons hws hc]
    split <;> simp_all
  | next hws hws' =>
    rw [List.append_assoc, List.cons_append, nextItem, skipSpace_spaces_cons hws rfl]
    simp only [Bool.false_eq_true, if_false, skipSpace_spaces_cons hws' hc]
    split <;> simp_all

lemma nextItem_end (hws : Spaces ws) : nextItem first (ws ++ ']' :: t) = .ok none := by
  rw [nextItem, skipSpace_spaces_cons hws rfl]
  rfl

lemma endList_append (hws : Spaces ws) : endList (ws ++ ']' :: t) = .ok t := by
  rw [endList, skipSpace_spaces_cons hws rfl]
  rfl

lemma nextName_append {s : List Char} (hs : Sep first s) :
    nextName first (s ++ '"' :: t) = .ok (some t) := by
  cases hs with
  | first hws =>
    rw [nextName, skipSpace_spaces_cons hws rfl]
    rfl
  | @next ws ws' hws hws' =>
    have hskip : skipSpace (ws' ++ '"' :: t) = '"' :: t := skipSpace_spaces_cons hws' rfl
    rw [List.append_assoc, List.cons_append, nextName, skipSpace_spaces_cons hws rfl]
    simp [hskip]

lemma nextName_end (hws : Spaces ws) : nextName first (ws ++ '\x7d' :: t) = .ok none := by
  rw [nextName, skipSpace_spaces_cons hws rfl]
  rfl

lemma endObject_append (hws : Spaces ws) : endObject (ws ++ '\x7d' :: t) = .ok t := by
  rw [endObject, skipSpace_spaces_cons hws rfl]
  rfl

lemma afterColon_append (hws : Spaces ws) : afterColon (ws ++ ':' :: t) = .ok t := by
  rw [afterColon, skipSpace_spaces_cons hws rfl]
  rfl

lemma readAny_spaces (hws : Spaces ws) :
    readAny (fuel + 1) d (ws ++ cs) = readAny (fuel + 1) d cs := by
  rw [readAny, readAny, skipSpace_append hws]

lemma readAny_digit {c : Char} (hc : c.isDigit = true) :
    readAny (fuel + 1) d (c :: t) = readNumber false (c :: t) := by
  have hminus : c ≠ '-' := by
    rintro rfl
    simp at hc
  rw [readAny, skipSpace_cons (not_isSpace_of_isDigit hc)]
  split <;> simp_all

lemma exists_cons_of_value (h : Written d (.value j) u) :
    ∃ c cs, u = c :: cs ∧ isSpace c = false ∧ c ≠ ']' := by
  cases h with
  | number h =>
    obtain ⟨n, hn, -⟩ := h
    obtain ⟨c, cs, rfl, hc⟩ := exists_cons_of_unsigned hn
    refine ⟨c, cs, rfl, not_isSpace_of_isDigit hc, ?_⟩
    rintro rfl
    simp at hc
  | _ => exact ⟨_, _, rfl, rfl, by decide⟩

lemma stops_of_spaces (hws : Spaces ws) : Stops isNumberChar ws :=
  fun _ hc => not_isNumberChar_of_isSpace (hws _ (List.mem_of_mem_head? hc))

lemma stops_of_sep {s : List Char} (hs : Sep false s) : Stops isNumberChar (s ++ t) := by
  cases hs with
  | next hws =>
    rw [List.append_assoc]
    exact (stops_of_spaces hws).append (by simp [Stops, isNumberChar])

lemma stops_of_items {js : List Json} (h : Written d (.items false js) u) :
    Stops isNumberChar u := by
  cases h with
  | noItems => simp [Stops]
  | item hs => exact stops_of_sep hs

lemma stops_of_fields {fs : List (String × Json)} (h : Written d (.fields false fs) u) :
    Stops isNumberChar u := by
  cases h with
  | noFields => simp [Stops]
  | field hs => exact stops_of_sep hs

/-- What reading gives for the text of a part, whatever follows: a value, or items or fields up to
the bracket that ends them. -/
def Reads (d : ℕ) : Part → List Char → Prop
  | .value j, u => ∀ {fuel t}, 2 * u.length ≤ fuel → (IsNumber j → Stops isNumberChar t) →
      readAny fuel d (u ++ t) = .ok (j, t)
  | .items first js, u => ∀ {fuel ws t}, 2 * u.length + 1 ≤ fuel → Spaces ws →
      readItems fuel d first (u ++ (ws ++ ']' :: t)) = .ok (js, ws ++ ']' :: t)
  | .fields first fs, u => ∀ {fuel ws t}, 2 * u.length + 1 ≤ fuel → Spaces ws →
      readFields fuel d first (u ++ (ws ++ '\x7d' :: t)) = .ok (fs, ws ++ '\x7d' :: t)

lemma reads_leaf (hu : u ≠ [])
    (h : ∀ fuel t, (IsNumber j → Stops isNumberChar t) →
      readAny (fuel + 1) d (u ++ t) = .ok (j, t)) : Reads d (.value j) u := by
  intro fuel t hfuel ht
  have := List.length_pos_iff.mpr hu
  obtain ⟨fuel, rfl⟩ : ∃ n, fuel = n + 1 := ⟨fuel - 1, by omega⟩
  exact h fuel t ht

lemma reads_string {ds : List Char} (hu : Chars u ds) :
    Reads d (.value (.string (String.ofList ds))) ('"' :: (u ++ ['"'])) := by
  refine reads_leaf (by simp) fun fuel t _ => ?_
  rw [readAny, List.cons_append, skipSpace_cons rfl]
  simp [readString_append hu, Except.map]

lemma reads_number (hu : Number false u j) : Reads d (.value j) u := by
  obtain ⟨n, hn, hj⟩ := hu
  obtain ⟨c, cs, rfl, hc⟩ := exists_cons_of_unsigned hn
  refine reads_leaf (by simp) fun fuel t ht => ?_
  rw [List.cons_append, readAny_digit hc, ← List.cons_append]
  exact readNumber_append ⟨n, hn, hj⟩ (ht (isNumber_of_number ⟨n, hn, hj⟩))

lemma reads_negative (hu : Number true u j) : Reads d (.value j) ('-' :: u) := by
  refine reads_leaf (by simp) fun fuel t ht => ?_
  rw [readAny, List.cons_append, skipSpace_cons rfl]
  simp [readNumber_append hu (ht (isNumber_of_number hu))]

lemma reads_array {js : List Json} (hws : Spaces ws) (ih : Reads (d + 1) (.items true js) u) :
    Reads (d + 2) (.value (.array js)) ('[' :: (u ++ (ws ++ [']']))) := by
  intro fuel t hfuel _
  obtain ⟨fuel, rfl⟩ : ∃ n, fuel = n + 1 := ⟨fuel - 1, by simp at hfuel; omega⟩
  have hread : readItems fuel (d + 1) true (u ++ (ws ++ ']' :: t)) = .ok (js, ws ++ ']' :: t) :=
    ih (by simp at hfuel; omega) hws
  rw [readAny, List.cons_append, skipSpace_cons rfl]
  simp [hread, endList_append hws, bind, Except.bind, pure, Except.pure]

lemma reads_object {fs : List (String × Json)} (hws : Spaces ws)
    (ih : Reads (d + 1) (.fields true fs) u) :
    Reads (d + 2) (.value (.object fs)) ('\x7b' :: (u ++ (ws ++ ['\x7d']))) := by
  intro fuel t hfuel _
  obtain ⟨fuel, rfl⟩ : ∃ n, fuel = n + 1 := ⟨fuel - 1, by simp at hfuel; omega⟩
  have hread : readFields fuel (d + 1) true (u ++ (ws ++ '\x7d' :: t)) =
      .ok (fs, ws ++ '\x7d' :: t) := ih (by simp at hfuel; omega) hws
  rw [readAny, List.cons_append, skipSpace_cons rfl]
  simp [hread, endObject_append hws, bind, Except.bind, pure, Except.pure]

lemma reads_item {s : List Char} {js : List Json} (hs : Sep first s)
    (hu : Written d (.value j) u) (hv : Written d (.items false js) v) (ihu : Reads d (.value j) u)
    (ihv : Reads d (.items false js) v) : Reads d (.items first (j :: js)) (s ++ (u ++ v)) := by
  intro fuel ws t hfuel hws
  obtain ⟨fuel, rfl⟩ : ∃ n, fuel = n + 1 := ⟨fuel - 1, by omega⟩
  obtain ⟨c, cs, rfl, hc, hend⟩ := exists_cons_of_value hu
  simp only [List.length_append, List.length_cons] at hfuel
  have hstops : Stops isNumberChar (v ++ (ws ++ ']' :: t)) :=
    (stops_of_items hv).append ((stops_of_spaces hws).append (by simp [Stops, isNumberChar]))
  have hvalue : readAny fuel d (c :: cs ++ (v ++ (ws ++ ']' :: t))) =
      .ok (j, v ++ (ws ++ ']' :: t)) := ihu (by simp; omega) fun _ => hstops
  have hitems : readItems fuel d false (v ++ (ws ++ ']' :: t)) = .ok (js, ws ++ ']' :: t) :=
    ihv (by omega) hws
  rw [readItems, List.append_assoc, List.append_assoc, List.cons_append,
    nextItem_append hs hc hend, ← List.cons_append]
  simp only [bind, Except.bind, hvalue, hitems, pure, Except.pure]

lemma reads_field {s k ks ws ws' : List Char} {fs : List (String × Json)} (hs : Sep first s)
    (hk : Chars k ks) (hws : Spaces ws) (hws' : Spaces ws')
    (hv : Written d (.fields false fs) v) (ihu : Reads d (.value j) u)
    (ihv : Reads d (.fields false fs) v) :
    Reads d (.fields first ((String.ofList ks, j) :: fs))
      (s ++ '"' :: (k ++ '"' :: (ws ++ ':' :: (ws' ++ (u ++ v))))) := by
  intro fuel ws₀ t hfuel hws₀
  obtain ⟨fuel, rfl⟩ : ∃ n, fuel = n + 2 := ⟨fuel - 2, by simp at hfuel; omega⟩
  simp only [List.length_append, List.length_cons] at hfuel
  have hstops : Stops isNumberChar (v ++ (ws₀ ++ '\x7d' :: t)) :=
    (stops_of_fields hv).append ((stops_of_spaces hws₀).append (by simp [Stops, isNumberChar]))
  have hvalue : readAny (fuel + 1) d (u ++ (v ++ (ws₀ ++ '\x7d' :: t))) =
      .ok (j, v ++ (ws₀ ++ '\x7d' :: t)) := ihu (by omega) fun _ => hstops
  have hfields : readFields (fuel + 1) d false (v ++ (ws₀ ++ '\x7d' :: t)) =
      .ok (fs, ws₀ ++ '\x7d' :: t) := ihv (by omega) hws₀
  rw [readFields]
  simp only [List.append_assoc, List.cons_append, nextName_append hs, bind, Except.bind,
    readString_append hk, afterColon_append hws, readAny_spaces hws', hvalue, hfields, pure,
    Except.pure]

/-- **What is written is read.** -/
theorem reads_of_written {part : Part} (h : Written d part u) : Reads d part u := by
  induction h with
  | null | true | false =>
    refine reads_leaf (by simp) fun fuel t _ => ?_
    rw [readAny, List.cons_append, skipSpace_cons rfl]
    simp [readWord, Except.map]
  | string hu => exact reads_string hu
  | number hu => exact reads_number hu
  | negative hu => exact reads_negative hu
  | array _ hws ih => exact reads_array hws ih
  | object _ hws ih => exact reads_object hws ih
  | noItems =>
    intro fuel ws t hfuel hws
    obtain ⟨fuel, rfl⟩ : ∃ n, fuel = n + 1 := ⟨fuel - 1, by simp at hfuel; omega⟩
    rw [readItems, List.nil_append, nextItem_end hws]
    rfl
  | item hs hu hv ihu ihv => exact reads_item hs hu hv ihu ihv
  | noFields =>
    intro fuel ws t hfuel hws
    obtain ⟨fuel, rfl⟩ : ∃ n, fuel = n + 1 := ⟨fuel - 1, by simp at hfuel; omega⟩
    rw [readFields, List.nil_append, nextName_end hws]
    rfl
  | field hs hk hws hws' _ hv ihu ihv => exact reads_field hs hk hws hws' hv ihu ihv

/-! ### Whole texts -/

/-- A value is read up to its end; what stands behind it is looked at afterwards. -/
lemma read_append (hws : Spaces ws) (hu : Written depthLimit (.value j) u)
    (ht : IsNumber j → Stops isNumberChar t) :
    read (ws ++ (u ++ t)) = match skipSpace t with
      | [] => pure j
      | rest => stopBefore .trailingCharacters rest := by
  have hread : readAny (2 * (ws ++ (u ++ t)).length + 63) depthLimit (u ++ t) = .ok (j, t) :=
    reads_of_written hu (by simp; omega) ht
  rw [Json.read, readShape, readAs, readAny_spaces hws, hread]
  rfl

/-- **A text stands for a value if and only if it is a document of it.** -/
theorem read?_eq_some_iff : read? cs = some j ↔ Document j cs := by
  constructor
  · intro h
    have hok : read cs = .ok j := by
      cases hr : read cs with
      | error e => simp [read?, hr, Except.toOption] at h
      | ok j' => simpa [read?, hr, Except.toOption] using h
    rw [Json.read, readShape, readAs] at hok
    obtain ⟨⟨j', r⟩, hj, hend⟩ := bind_eq_ok.mp hok
    obtain ⟨ws, u, hws, rfl, hu⟩ := (sound _).1 hj
    cases hr : skipSpace r with
    | nil =>
      simp only [hr] at hend
      cases hend
      exact ⟨ws, u, r, hws, hu, skipSpace_eq_nil_iff.mp hr, rfl⟩
    | cons c rest => simp [hr, stopBefore] at hend
  · rintro ⟨ws, u, ws', hws, hu, hws', rfl⟩
    rw [read?, read_append hws hu fun _ => stops_of_spaces hws', skipSpace_eq_nil_iff.mpr hws']
    rfl

lemma read?_of_written (h : Written depthLimit (.value j) u) : read? u = some j :=
  read?_eq_some_iff.mpr ⟨[], u, [], spaces_nil, h, spaces_nil, by simp⟩

lemma read?_object_append {fs : List (String × Json)} (hws : Spaces ws)
    (hu : Written depthLimit (.value (.object fs)) u) (ht : ¬ Spaces t) :
    read? (ws ++ (u ++ t)) = none := by
  rw [read?, read_append hws hu False.elim]
  cases hr : skipSpace t with
  | nil => exact absurd (skipSpace_eq_nil_iff.mp hr) ht
  | cons c rest => rfl

end CodeHealth.Proofs.JsonReader
