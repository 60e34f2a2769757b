import CodeHealth.Proofs.OrderIndependence

/-!
Files that are held in memory.

A path is listed when the table holds nothing for it, however it is spelled. So the list and the
table stay in step: the list has each path as it came first, and the table what came for it last.
-/

namespace CodeHealth.Proofs.FileListing

open CodeHealth.Check CodeHealth.Proofs.Evaluation CodeHealth.Proofs.FindingOrder
  CodeHealth.Proofs.OrderIndependence

variable {entries : List (Path × Option String)} {p : Path} {text : Option String}

/-! ### Spellings -/

lemma same_congr {a b : Path} (h : a.same b = true) (p : Path) : a.same p = b.same p := by
  rw [Path.same, Path.same, same_iff.mp h]

/-! ### What came first -/

/-- The paths before which no spelling of the same path stands, in their order. -/
def firsts : List Path → List Path
  | [] => []
  | p :: ps => p :: (firsts ps).filter fun q => !p.same q

lemma firsts_sublist (ps : List Path) : (firsts ps).Sublist ps := by
  induction ps with
  | nil => exact .slnil
  | cons p ps ih => exact (List.filter_sublist.trans ih).cons_cons p

lemma distinct_firsts (ps : List Path) : Distinct (firsts ps) := by
  induction ps with
  | nil => exact .nil
  | cons p ps ih =>
    refine List.pairwise_cons.mpr ⟨fun q hq => ?_, ih.filter _⟩
    simpa using (List.mem_filter.mp hq).2

/-- A path is listed behind the others unless a spelling of it is there. -/
lemma firsts_concat (ps : List Path) (p : Path) :
    firsts (ps ++ [p]) = if ps.any (·.same p) then firsts ps else firsts ps ++ [p] := by
  induction ps with
  | nil => rfl
  | cons q ps ih =>
    rw [List.cons_append, firsts, ih, List.any_cons, firsts]
    cases hany : ps.any (·.same p) with
    | true => rw [if_pos rfl, Bool.or_true, if_pos rfl]
    | false =>
      rw [if_neg Bool.false_ne_true, List.filter_append, Bool.or_false]
      cases hq : q.same p with
      | true => simp [hq]
      | false => simp [hq]

lemma mem_components_firsts {ps : List Path} {p : Path} (h : p ∈ ps) :
    p.components ∈ (firsts ps).map Path.components := by
  induction ps with
  | nil => cases h
  | cons q ps ih =>
    rw [firsts, List.map_cons]
    by_cases hq : q.same p = true
    · rw [← same_iff.mp hq]
      exact List.mem_cons_self
    · have hps : p ∈ ps := by
        rcases List.mem_cons.mp h with rfl | hps
        · exact absurd (same_refl p) hq
        · exact hps
      obtain ⟨r, hr, hcomponents⟩ := List.mem_map.mp (ih hps)
      refine List.mem_cons_of_mem _ (List.mem_map.mpr ⟨r, List.mem_filter.mpr ⟨hr, ?_⟩, hcomponents⟩)
      rw [Path.same, hcomponents]
      simpa [Path.same] using hq

/-- **Each path that was added is listed once.** -/
lemma countP_firsts {ps : List Path} {p : Path} (h : p ∈ ps) :
    (firsts ps).countP (·.same p) = 1 := by
  have hcount : (firsts ps).countP (·.same p) =
      ((firsts ps).map Path.components).count p.components := by
    rw [List.count, List.countP_map]
    exact List.countP_congr fun q _ => by simp [Path.same]
  rw [hcount]
  exact List.count_eq_one_of_mem (nodup_components (distinct_firsts ps)) (mem_components_firsts h)

/-! ### What came last -/

def LastSet (entries : List (Path × Option String)) (p : Path) (text : Option String) : Prop :=
  ∃ before q after, entries = before ++ (q, text) :: after ∧ q.same p = true ∧
    ∀ e ∈ after, e.1.same p = false

/-- What came for a path last, if anything did. -/
def latest? (entries : List (Path × Option String)) (p : Path) : Option (Option String) :=
  (entries.reverse.find? fun e => e.1.same p).map (·.2)

lemma latest?_eq_some : latest? entries p = some text ↔ LastSet entries p text := by
  rw [latest?, Option.map_eq_some_iff]
  constructor
  · rintro ⟨⟨q, text⟩, hfound, rfl⟩
    obtain ⟨hq, after, before, hreverse, hafter⟩ := List.find?_eq_some_iff_append.mp hfound
    refine ⟨before.reverse, q, after.reverse, ?_, hq, fun e he => ?_⟩
    · rw [← List.reverse_reverse entries, hreverse]
      simp
    · simpa using hafter e (List.mem_reverse.mp he)
  · rintro ⟨before, q, after, rfl, hq, hafter⟩
    refine ⟨(q, text), List.find?_eq_some_iff_append.mpr ⟨hq, after.reverse, before.reverse, ?_,
      fun e he => ?_⟩, rfl⟩
    · simp
    · simpa using hafter e (List.mem_reverse.mp he)

lemma latest?_eq_none : latest? entries p = none ↔ ∀ e ∈ entries, e.1.same p = false := by
  rw [latest?, Option.map_eq_none_iff, List.find?_eq_none]
  simp

lemma latest?_concat (entries : List (Path × Option String)) (q : Path) (text : Option String)
    (p : Path) : latest? (entries ++ [(q, text)]) p =
      if q.same p then some text else latest? entries p := by
  rw [latest?, List.reverse_append, List.reverse_singleton, List.singleton_append, List.find?_cons]
  cases hq : q.same p <;> rfl

/-! ### The list and the table -/

lemma find?_setEntry (q : Path) (text : Option String) (es : List (Path × Option String))
    (p : Path) : ((MemoryFiles.setEntry q text es).find? fun e => e.1.same p).map (·.2) =
      if q.same p then some text else (es.find? fun e => e.1.same p).map (·.2) := by
  induction es with
  | nil =>
    rw [MemoryFiles.setEntry, List.find?_cons]
    cases hq : q.same p <;> rfl
  | cons e es ih =>
    obtain ⟨r, t⟩ := e
    rw [MemoryFiles.setEntry]
    by_cases hr : r.same q = true
    · rw [if_pos hr, List.find?_cons, List.find?_cons, same_congr hr]
      cases hq : q.same p <;> rfl
    · rw [if_neg hr, List.find?_cons, List.find?_cons]
      cases hrp : r.same p with
      | false => exact ih
      | true =>
        have hq : ¬ q.same p = true := fun hq =>
          hr (same_iff.mpr ((same_iff.mp hrp).trans (same_iff.mp hq).symm))
        rw [if_neg hq]

/-- What was added is found in any spelling, and nothing else is changed. -/
lemma content?_add (fs : MemoryFiles) (q : Path) (text : Option String) (p : Path) :
    (fs.add q text).content? p = if q.same p then some text else fs.content? p :=
  find?_setEntry q text fs.contents p

/-- Files hold what was added to them: the list what came first, and the table what came last. -/
structure Tracks (entries : List (Path × Option String)) (fs : MemoryFiles) : Prop where
  paths : fs.paths = firsts (entries.map (·.1))
  content : ∀ p, fs.content? p = latest? entries p

lemma Tracks.isSome_content {fs : MemoryFiles} (h : Tracks entries fs) (p : Path) :
    (fs.content? p).isSome = (entries.map (·.1)).any (·.same p) := by
  rw [h.content, Bool.eq_iff_iff, Option.isSome_iff_ne_none, Ne, latest?_eq_none]
  simp

/-- **The list and the table stay in step.** -/
lemma Tracks.add {fs : MemoryFiles} (h : Tracks entries fs) (q : Path) (text : Option String) :
    Tracks (entries ++ [(q, text)]) (fs.add q text) where
  paths := by
    rw [MemoryFiles.add, List.map_append, List.map_singleton, firsts_concat, ← h.isSome_content,
      h.paths]
  content p := by rw [content?_add, h.content, latest?_concat]

lemma tracks_mk (entries : List (Path × Option String)) :
    Tracks entries (MemoryFiles.mk entries) := by
  induction entries using List.reverseRecOn with
  | nil => exact ⟨rfl, fun _ => rfl⟩
  | append_singleton entries e ih =>
    rw [MemoryFiles.mk, List.foldl_append]
    exact ih.add e.1 e.2

/-! ### Reading -/

lemma read_of_lastSet {content : String} (h : LastSet entries p (some content)) :
    (MemoryFiles.mk entries).read p = .ok content := by
  rw [MemoryFiles.read, (tracks_mk entries).content, latest?_eq_some.mpr h]

lemma read_of_unreadable (h : LastSet entries p none) :
    (MemoryFiles.mk entries).read p = .error (.unreadable p "unreadable") := by
  rw [MemoryFiles.read, (tracks_mk entries).content, latest?_eq_some.mpr h]

lemma read_eq_notFound : (MemoryFiles.mk entries).read p = .error (.notFound p) ↔
    ∀ e ∈ entries, e.1.same p = false := by
  rw [MemoryFiles.read, (tracks_mk entries).content, ← latest?_eq_none]
  cases latest? entries p with
  | none => simp
  | some text => cases text <;> simp

/-! ### A run -/

lemma path_progress (cs : List Checker) (total done : ℕ) (ps : List Path) :
    ((Engine.mk cs none).progress total done ps).map (·.path) = ps := by
  induction ps generalizing done with
  | nil => rfl
  | cons p ps ih =>
    rw [Engine.progress, if_neg (by simp [Engine.isCancelled]), List.map_cons, ih]

lemma exists_lastSet (h : p ∈ (MemoryFiles.mk entries).paths) (cs : List Checker)
    (config : Rule.Config) :
    (∃ content, LastSet entries p (some content) ∧
      outcomeOf cs config (MemoryFiles.mk entries).toFileSet p =
        .evaluated (evaluateFile cs config p content)) ∨
    (LastSet entries p none ∧ outcomeOf cs config (MemoryFiles.mk entries).toFileSet p =
      .unreadable ⟨some p, none, (FileError.unreadable p "unreadable").message⟩) := by
  cases hlatest : latest? entries p with
  | none =>
    rw [(tracks_mk entries).paths] at h
    obtain ⟨e, he, rfl⟩ := List.mem_map.mp ((firsts_sublist _).subset h)
    have hnone := latest?_eq_none.mp hlatest e he
    rw [same_refl] at hnone
    cases hnone
  | some text =>
    have hlast := latest?_eq_some.mp hlatest
    cases text with
    | some content => exact .inl ⟨content, hlast, outcomeOf_of_ok (read_of_lastSet hlast)⟩
    | none => exact .inr ⟨hlast, outcomeOf_of_error (read_of_unreadable hlast)⟩

/-- **Files in memory are what was added to them.** The list has each path once, in the order and
the spelling in which it came first; a path in any spelling is read as what came for it last; and a
run that is not cancelled looks at each file once, as it came last. -/
theorem memory_files_in_step (entries : List (Path × Option String)) :
    let files := MemoryFiles.mk entries
    Distinct files.paths ∧ files.paths = firsts (entries.map (·.1)) ∧
    (∀ p content, LastSet entries p (some content) → files.read p = .ok content) ∧
    (∀ p, LastSet entries p none → files.read p = .error (.unreadable p "unreadable")) ∧
    (∀ p, files.read p = .error (.notFound p) ↔ ∀ e ∈ entries, e.1.same p = false) ∧
    ∀ cs config, let engine := Engine.mk cs none
      (engine.progress files.paths.length 0 files.paths).map (·.path) = files.paths ∧
      (∀ e ∈ entries, files.paths.countP (·.same e.1) = 1) ∧
      engine.run config files.toFileSet =
        .ofOutcomes (files.paths.map (outcomeOf cs config files.toFileSet)) ∧
      ∀ p ∈ files.paths,
        (∃ content, LastSet entries p (some content) ∧ outcomeOf cs config files.toFileSet p =
          .evaluated (evaluateFile cs config p content)) ∨
        (LastSet entries p none ∧ outcomeOf cs config files.toFileSet p =
          .unreadable ⟨some p, none, (FileError.unreadable p "unreadable").message⟩) := by
  have hpaths : (MemoryFiles.mk entries).paths = firsts (entries.map (·.1)) :=
    (tracks_mk entries).paths
  refine ⟨hpaths ▸ distinct_firsts _, hpaths, fun p content => read_of_lastSet,
    fun p => read_of_unreadable, fun p => read_eq_notFound, fun cs config =>
    ⟨path_progress cs _ 0 _, fun e he => ?_, ?_, fun p hp => exists_lastSet hp cs config⟩⟩
  · rw [hpaths]
    exact countP_firsts (List.mem_map_of_mem he)
  · exact congrArg Evaluation.ofOutcomes (outcomes_eq_map cs config _ 0 _)

/-- A path that comes again in another spelling keeps its place. -/
example : (MemoryFiles.mk [(⟨"a//b.js"⟩, some "x"), (⟨"c.js"⟩, none), (⟨"a/./b.js"⟩, none)]).paths =
    [⟨"a//b.js"⟩, ⟨"c.js"⟩] := by decide

end CodeHealth.Proofs.FileListing
