import CodeHealth.Proofs.BraceScan
import CodeHealth.Proofs.JsonReader
import CodeHealth.Proofs.PayloadRecovery

/-!
Blocks between braces with no brace between them.

The search for such blocks does not know strings, so it may cut an object of flat values within its
strings. What it cuts out there is hardly ever an object, and never a payload: where the object is
in a string the block is not, and the other way round, so that the names of the block's fields stand
where the object has commas, colons, digits and words.
-/

namespace CodeHealth.Proofs.FlatBlocks

open CodeHealth.Advice CodeHealth.Json CodeHealth.Proofs.JsonText CodeHealth.Proofs.JsonLeaves
open CodeHealth.Proofs.JsonReader CodeHealth.Proofs.BraceScan CodeHealth.Proofs.PayloadRecovery

/-- A text without braces. -/
def Braceless (u : List Char) : Prop := '\x7b' ∉ u ∧ '\x7d' ∉ u

lemma braceless_cons {c : Char} {u : List Char} :
    Braceless (c :: u) ↔ (c ≠ '\x7b' ∧ c ≠ '\x7d') ∧ Braceless u := by
  simp only [Braceless, List.mem_cons, not_or, ne_comm (a := c)]
  tauto

lemma braceless_append {u v : List Char} :
    Braceless (u ++ v) ↔ Braceless u ∧ Braceless v := by
  simp only [Braceless, List.mem_append, not_or]
  tauto

lemma braceless_of_spaces {ws : List Char} (h : Spaces ws) : Braceless ws :=
  ⟨fun hc => absurd (h _ hc) (by decide), fun hc => absurd (h _ hc) (by decide)⟩

/-! ### The search for blocks -/

section

variable {u v f : List Char}

lemma flatBlocksFrom_braceless (hu : Braceless u) (since : Option (List Char)) (t : List Char) :
    flatBlocksFrom since (u ++ t) = flatBlocksFrom (since.map (u.reverse ++ ·)) t := by
  induction u generalizing since with
  | nil => simp
  | cons c u ih =>
    obtain ⟨⟨ho, hc⟩, hu⟩ := braceless_cons.mp hu
    simp only [List.cons_append, flatBlocksFrom, if_neg ho, if_neg hc, ih hu]
    cases since <;> simp

lemma flatBlocksFrom_close (since : Option (List Char)) (u t : List Char) :
    flatBlocksFrom since (u ++ '\x7d' :: t) =
      flatBlocksFrom since (u ++ ['\x7d']) ++ flatBlocksFrom none t := by
  induction u generalizing since with
  | nil => cases since <;> simp [flatBlocksFrom]
  | cons c u ih =>
    simp only [List.cons_append, flatBlocksFrom, ih]
    split_ifs
    · rfl
    · cases since <;> simp
    · rfl

/-- A text whose blocks do not depend on what comes behind it. -/
def Closed (u : List Char) : Prop := ∀ t, flatBlocks (u ++ t) = flatBlocks u ++ flatBlocks t

lemma flatBlocks_braceless (hu : Braceless u) : flatBlocks u = [] := by
  have := flatBlocksFrom_braceless hu none []
  rwa [List.append_nil] at this

lemma closed_of_braceless (hu : Braceless u) : Closed u := by
  intro t
  rw [flatBlocks_braceless hu, List.nil_append]
  exact flatBlocksFrom_braceless hu none t

lemma closed_close (u : List Char) : Closed (u ++ ['\x7d']) := by
  intro t
  rw [List.append_assoc]
  exact flatBlocksFrom_close none u t

lemma Closed.append (hu : Closed u) (hv : Closed v) : Closed (u ++ v) := by
  intro t
  rw [List.append_assoc, hu, hv, hu v, List.append_assoc]

lemma flatBlocks_block (hu : Braceless u) :
    flatBlocks ('\x7b' :: (u ++ ['\x7d'])) = ['\x7b' :: (u ++ ['\x7d'])] := by
  rw [flatBlocks, flatBlocksFrom, if_pos rfl, flatBlocksFrom_braceless hu]
  simp [flatBlocksFrom]

lemma mem_flatBlocksFrom {since : Option (List Char)} {cs : List Char}
    (h : f ∈ flatBlocksFrom since cs) :
    (∃ before x b, since = some before ∧ Braceless x ∧ cs = x ++ '\x7d' :: b ∧
      f = before.reverse ++ (x ++ ['\x7d'])) ∨
    ∃ a x b, Braceless x ∧ cs = a ++ '\x7b' :: (x ++ '\x7d' :: b) ∧
      f = '\x7b' :: (x ++ ['\x7d']) := by
  induction cs generalizing since with
  | nil => simp [flatBlocksFrom] at h
  | cons c cs ih =>
    simp only [flatBlocksFrom] at h
    split_ifs at h with ho hc
    · -- a block may start here
      rcases ih h with ⟨before, x, b, hsince, hx, rfl, rfl⟩ | ⟨a, x, b, hx, rfl, rfl⟩
      · cases hsince
        exact .inr ⟨[], x, b, hx, by simp [ho], rfl⟩
      · exact .inr ⟨c :: a, x, b, hx, rfl, rfl⟩
    · -- a block may end here
      have hrest (h : f ∈ flatBlocksFrom none cs) : ∃ a x b, Braceless x ∧
          c :: cs = a ++ '\x7b' :: (x ++ '\x7d' :: b) ∧ f = '\x7b' :: (x ++ ['\x7d']) := by
        rcases ih h with ⟨_, _, _, hsince, -⟩ | ⟨a, x, b, hx, rfl, rfl⟩
        · cases hsince
        · exact ⟨c :: a, x, b, hx, rfl, rfl⟩
      cases since with
      | none => exact .inr (hrest h)
      | some before =>
        rcases List.mem_cons.mp h with rfl | h
        · exact .inl ⟨before, [], cs, rfl, by simp [Braceless], by simp [hc], by simp [hc]⟩
        · exact .inr (hrest h)
    · rcases ih h with ⟨before, x, b, hsince, hx, rfl, rfl⟩ | ⟨a, x, b, hx, rfl, rfl⟩
      · obtain ⟨before, rfl, rfl⟩ := Option.map_eq_some_iff.mp hsince
        exact .inl ⟨before, c :: x, b, rfl, braceless_cons.mpr ⟨⟨ho, hc⟩, hx⟩, rfl, by simp⟩
      · exact .inr ⟨c :: a, x, b, hx, rfl, rfl⟩

lemma mem_flatBlocks {text : List Char} (h : f ∈ flatBlocks text) :
    ∃ a x b, Braceless x ∧ text = a ++ '\x7b' :: (x ++ '\x7d' :: b) ∧
      f = '\x7b' :: (x ++ ['\x7d']) := by
  rcases mem_flatBlocksFrom h with ⟨_, _, _, hsince, -⟩ | h
  · cases hsince
  · exact h

end

/-! ### Blocks that start within a string -/

/-- The names of the fields of a stretch of a text. -/
def names : Part → List String
  | .fields _ fs => fs.map Prod.fst
  | _ => []

/-- A text that leaves the scan within a string if it stood there before, or ends it. -/
def Swapped (u : List Char) : Prop := run (.quoted 0) u ≠ .ended → run (.quoted 0) u = .quoted 0

section

variable {u v : List Char}

lemma run_left {s : Place} (h : run s (u ++ v) ≠ .ended) : run s u ≠ .ended := by
  intro hu
  rw [run_append, hu, run_ended] at h
  exact h rfl

lemma swapped_nil : Swapped [] := fun _ => rfl

lemma Swapped.append (hu : Swapped u) (hv : Swapped v) : Swapped (u ++ v) := by
  intro h
  have hleft := hu (run_left h)
  rw [run_append, hleft] at h ⊢
  exact hv h

lemma Swapped.right (hu : Swapped u) (h : run (.quoted 0) (u ++ v) ≠ .ended) :
    run (.quoted 0) v ≠ .ended := by
  have hleft := hu (run_left h)
  rwa [run_append, hleft] at h

lemma swapped_of_forall (h : ∀ c ∈ u, c ≠ '"' ∧ c ≠ '\\') : Swapped u := by
  induction u with
  | nil => exact swapped_nil
  | cons c u ih =>
    rw [List.forall_mem_cons] at h
    intro hrun
    by_cases hc : c.toNat < 0x20
    · simp [step, h.1.1, h.1.2, hc] at hrun
    · rw [run_cons, step_quoted h.1.2 h.1.1 (Nat.not_lt.mp hc)] at hrun ⊢
      exact ih h.2 hrun

lemma swapped_of_plain (h : Plain u) : Swapped u := by
  refine swapped_of_forall fun c hc => ⟨?_, ?_⟩ <;> rintro rfl <;> exact absurd (h _ hc) (by decide)

lemma plain_of_step {c : Char} (hq : c ≠ '"') (h : step (.outside 0) c ≠ .ended) :
    isPlain c = true := by
  by_contra hplain
  refine h ?_
  by_cases ho : c = '\x7b'
  · simp [step, ho]
  by_cases hc : c = '\x7d'
  · simp [step, hc]
  · simp [step, hq, ho, hc, hplain]

lemma plain_of_chars {ds : List Char} (h : Chars u ds) (hrun : run (.outside 0) u ≠ .ended) :
    run (.outside 0) u = .outside 0 ∧ Plain ds := by
  induction h with
  | nil => exact ⟨rfl, plain_nil⟩
  | plain hq _ _ _ ih =>
    have hplain := plain_of_step hq (run_left (u := [_]) hrun)
    rw [run_cons, step_plain 0 hplain] at hrun ⊢
    exact ⟨(ih hrun).1, plain_cons.mpr ⟨hplain, (ih hrun).2⟩⟩
  | escape =>
    have hplain : isPlain '\\' = true := plain_of_step (by decide) (run_left (u := [_]) hrun)
    exact absurd hplain (by decide)

lemma swapped_string {w ds : List Char} (hw : Swapped w) (h : Chars u ds)
    (hrun : run (.quoted 0) (w ++ '"' :: (u ++ '"' :: v)) ≠ .ended) :
    Plain ds ∧ run (.quoted 0) (w ++ '"' :: (u ++ '"' :: v)) = run (.quoted 0) v := by
  have hopen :
      run (.quoted 0) (w ++ '"' :: (u ++ '"' :: v)) = run (.outside 0) (u ++ '"' :: v) := by
    rw [run_append, hw (run_left hrun)]
    rfl
  rw [hopen] at hrun ⊢
  obtain ⟨hu, hds⟩ := plain_of_chars h (run_left hrun)
  rw [run_append, hu]
  exact ⟨hds, rfl⟩

lemma Swapped.string {w ds : List Char} (hw : Swapped w) (h : Chars u ds) (hv : Swapped v) :
    Swapped (w ++ '"' :: (u ++ '"' :: v)) := by
  intro hrun
  have hskip := (swapped_string hw h hrun).2
  rw [hskip] at hrun ⊢
  exact hv hrun

/-- **A value without braces, read from within a string**, leaves the scan within a string, and the
names of its fields are plain. -/
theorem swapped_of_written {d : ℕ} {part : Part} (h : Written d part u) (hu : Braceless u) :
    Swapped u ∧ (run (.quoted 0) u ≠ .ended → ∀ name ∈ names part, Plain name.toList) := by
  induction h with
  | null | true | false =>
    exact ⟨swapped_of_plain (List.all_eq_true.mp rfl), fun _ => by simp [names]⟩
  | string hs => exact ⟨swapped_nil.string hs swapped_nil, fun _ => by simp [names]⟩
  | number h =>
    obtain ⟨n, hn, -⟩ := h
    exact ⟨swapped_of_plain (plain_of_unsigned hn), fun _ => by simp [names]⟩
  | negative h =>
    obtain ⟨n, hn, -⟩ := h
    exact ⟨swapped_of_plain (plain_cons.mpr ⟨rfl, plain_of_unsigned hn⟩), fun _ => by simp [names]⟩
  | @array d u ws js _ hws ih =>
    have hbody : Braceless u := (braceless_append.mp (braceless_cons.mp hu).2).1
    have hopen : Swapped ['['] := swapped_of_plain (plain_cons.mpr ⟨rfl, plain_nil⟩)
    have hclose : Swapped (ws ++ [']']) := swapped_of_plain
      (plain_append.mpr ⟨plain_of_spaces hws, plain_cons.mpr ⟨rfl, plain_nil⟩⟩)
    exact ⟨hopen.append ((ih hbody).1.append hclose), fun _ => by simp [names]⟩
  | object => exact absurd rfl (braceless_cons.mp hu).1.1
  | noItems | noFields => exact ⟨swapped_nil, fun _ => by simp [names]⟩
  | item hs _ _ ihu ihv =>
    obtain ⟨-, hu⟩ := braceless_append.mp hu
    obtain ⟨hu, hv⟩ := braceless_append.mp hu
    have hsep := swapped_of_plain (plain_of_sep hs)
    exact ⟨hsep.append ((ihu hu).1.append (ihv hv).1), fun _ => by simp [names]⟩
  | @field d first s k ks ws ws' u v j fs hs hk hws hws' _ _ ihu ihv =>
    -- blanks and the comma; the name, a string; the colon; the value; what follows
    have hcolon : Swapped (ws ++ ':' :: ws') := swapped_of_plain
      (plain_append.mpr ⟨plain_of_spaces hws, plain_cons.mpr ⟨rfl, plain_of_spaces hws'⟩⟩)
    obtain ⟨-, hu⟩ := braceless_append.mp hu
    obtain ⟨-, hu⟩ := braceless_append.mp (braceless_cons.mp hu).2
    obtain ⟨-, hu⟩ := braceless_append.mp (braceless_cons.mp hu).2
    obtain ⟨-, hu⟩ := braceless_append.mp (braceless_cons.mp hu).2
    obtain ⟨hu, hv⟩ := braceless_append.mp hu
    have hrest : Swapped (ws ++ ':' :: (ws' ++ (u ++ v))) := by
      simpa using hcolon.append ((ihu hu).1.append (ihv hv).1)
    have hsep := swapped_of_plain (plain_of_sep hs)
    refine ⟨hsep.string hk hrest, fun hrun => ?_⟩
    obtain ⟨hplain, hskip⟩ := swapped_string hsep hk hrun
    have hleft : run (.quoted 0) ((ws ++ ':' :: ws') ++ (u ++ v)) ≠ .ended := by
      rw [hskip] at hrun
      simpa using hrun
    have hfields := (ihv hv).2 ((ihu hu).1.right (hcolon.right hleft))
    simpa [names] using ⟨hplain, by simpa [names] using hfields⟩

end

/-! ### Blocks of a flat object -/

/-- The number of braces that are open where the scan stands. -/
def depth : Place → ℕ
  | .outside n | .quoted n | .escaped n => n
  | .ended => 0

lemma depth_step {s : Place} (h : depth s = 0) (c : Char) : depth (step s c) = 0 := by
  cases s with
  | ended => rfl
  | escaped n => exact h
  | quoted n =>
    simp only [step]
    split_ifs <;> first | exact h | rfl
  | outside n =>
    obtain rfl : n = 0 := h
    simp only [step]
    split_ifs <;> rfl

lemma depth_run {s : Place} (h : depth s = 0) (u : List Char) : depth (run s u) = 0 := by
  induction u generalizing s with
  | nil => exact h
  | cons c u ih => exact ih (depth_step h c)

lemma step_brace {s : Place} (h : depth s = 0) (hs : step s '\x7b' ≠ .ended) :
    step s '\x7b' = .quoted 0 := by
  cases s <;> simp_all [depth, step]

section

variable {fields fs : List (String × Json)} {u f : List Char}

lemma mem_names_of_field? {name : String} (h : field? name fields ≠ none) :
    name ∈ fields.map Prod.fst := by
  induction fields with
  | nil => simp [field?] at h
  | cons e fields ih =>
    obtain ⟨k, v⟩ := e
    rw [List.map_cons, List.mem_cons]
    by_cases hk : k = name
    · exact .inl hk.symm
    · refine .inr (ih fun hnone => h ?_)
      simp [field?, hnone, hk]

lemma ofFields?_of_plain (h : ∀ name ∈ fields.map Prod.fst, Plain name.toList) :
    Payload.ofFields? fields = none := by
  have hfield {name : String} (c : Char) (hmem : c ∈ name.toList) (hc : isPlain c = false) :
      field? name fields = none := by
    by_contra hne
    rw [h name (mem_names_of_field? hne) c hmem] at hc
    cases hc
  have hsummary : field? "summary" fields = none := hfield 'm' (by decide) (by decide)
  have hsuggestions : field? "suggestions" fields = none := hfield 'g' (by decide) (by decide)
  have hinsights : field? "insights" fields = none := hfield 'i' (by decide) (by decide)
  simp [Payload.ofFields?, hsummary, hsuggestions, hinsights]

lemma written_of_block {x : List Char} {j : Json}
    (h : read? ('\x7b' :: (x ++ ['\x7d'])) = some j) :
    Written depthLimit (.value j) ('\x7b' :: (x ++ ['\x7d'])) := by
  obtain ⟨ws, v, ws', hws, hv, hws', htext⟩ := read?_eq_some_iff.mp h
  obtain rfl : ws = [] := by
    cases ws with
    | nil => rfl
    | cons c ws =>
      rw [List.cons_append, List.cons.injEq] at htext
      exact absurd (hws c List.mem_cons_self) (by rw [← htext.1]; decide)
  obtain rfl : ws' = [] := by
    rcases List.eq_nil_or_concat ws' with rfl | ⟨ws', c, rfl⟩
    · rfl
    · have hlast := congrArg List.getLast? htext
      simp [List.getLast?_cons] at hlast
      exact absurd (hws' c (by simp)) (by rw [← hlast]; decide)
  rw [htext]
  simpa using hv

/-- A block that starts within a flat object starts within a string of it, so its names are
plain. -/
lemma plain_names_of_within {d : ℕ} {a v ws b : List Char}
    (hu : Written depthLimit (.value (.object fields)) u)
    (hflat : fields.all (fun field => isFlat field.2) = true) (hv : Written d (.fields true fs) v)
    (hbraceless : Braceless v) (htext : u = '\x7b' :: (a ++ '\x7b' :: (v ++ ws) ++ '\x7d' :: b)) :
    ∀ name ∈ fs.map Prod.fst, Plain name.toList := by
  obtain ⟨d', v', ws', hv', hws', rfl⟩ := exists_fields_of_object hu
  have hneutral : run (.outside 0) (v' ++ ws') = .outside 0 :=
    ((neutral_of_written hv' (.inr hflat)).append (neutral_of_spaces hws')) 0 le_rfl
  -- the object goes on behind the fields of the block
  have hbody : (a ++ '\x7b' :: (v ++ ws)) ++ '\x7d' :: b = (v' ++ ws') ++ ['\x7d'] := by
    simpa using htext.symm
  obtain ⟨r, hr⟩ : a ++ '\x7b' :: (v ++ ws) <+: v' ++ ws' := by
    rcases List.prefix_concat_iff.mp (hbody ▸ List.prefix_append _ _) with h | h
    · rw [h] at hbody
      simp at hbody
    · exact h
  have hrun : run (.outside 0) (a ++ '\x7b' :: (v ++ ws)) ≠ .ended := by
    refine run_left (v := r) ?_
    rw [hr, hneutral]
    exact Place.noConfusion
  rw [run_append, run_cons] at hrun
  have hdepth : depth (run (.outside 0) a) = 0 := depth_run rfl a
  have hstep := step_brace hdepth (run_left (u := ['\x7b']) hrun)
  rw [hstep] at hrun
  exact (swapped_of_written hv hbraceless).2 (run_left hrun)

/-- **The only payload between braces in a flat object is the object itself.** -/
theorem eq_of_mem_flatBlocks {payload : Payload}
    (hu : Written depthLimit (.value (.object fields)) u)
    (hflat : fields.all (fun field => isFlat field.2) = true) (hf : f ∈ flatBlocks u)
    (hpayload : Payload.ofText? f = some payload) : f = u := by
  obtain ⟨a, x, b, hx, htext, rfl⟩ := mem_flatBlocks hf
  obtain ⟨fs, hread, hfs⟩ : ∃ fs, read? ('\x7b' :: (x ++ ['\x7d'])) = some (.object fs) ∧
      Payload.ofFields? fs = some payload := by
    unfold Payload.ofText? at hpayload
    split at hpayload
    · next fs hread => exact ⟨fs, hread, hpayload⟩
    · cases hpayload
  have hblock := written_of_block hread
  cases a with
  | nil =>
    -- both are the first block of the text
    have hfirst := outerBlock?_append (p := []) (by simp) hblock b
    have hwhole := outerBlock?_append (p := []) (by simp) hu []
    rw [List.nil_append] at hfirst hwhole
    rw [List.append_nil, htext] at hwhole
    rw [List.cons_append, List.append_assoc] at hfirst
    rw [htext]
    exact Option.some.inj (hfirst.symm.trans hwhole)
  | cons c a =>
    obtain ⟨d, v, ws, hv, hws, hvx⟩ := exists_fields_of_object hblock
    obtain rfl : x = v ++ ws := by simpa [← List.append_assoc] using hvx
    obtain rfl : c = '\x7b' := by
      obtain ⟨_, v', ws', -, -, hu'⟩ := exists_fields_of_object hu
      rw [htext, List.cons_append, List.cons.injEq] at hu'
      exact hu'.1
    have hwithin : u = '\x7b' :: (a ++ '\x7b' :: (v ++ ws) ++ '\x7d' :: b) := by
      simpa using htext
    have hnames := plain_names_of_within hu hflat hv (braceless_append.mp hx).1 hwithin
    rw [ofFields?_of_plain hnames] at hfs
    cases hfs

end

end CodeHealth.Proofs.FlatBlocks
