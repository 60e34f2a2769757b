import CodeHealth.Proofs.RuleSettings

/-!
Every hit is accounted for.

The findings of a file are the hits of the checkers that are to look at it and whose rule the
catalog knows: as many, each stamped with what file, catalog and configuration say about it, sorted
by place and rule, and hits that end up at one place in the order in which their checker gave them.
Positions are moved to one before they are sorted, so that hits may meet at a place where they did
not stand.
-/

namespace CodeHealth.Proofs.HitAccounting

open CodeHealth.Check CodeHealth.Proofs.Evaluation CodeHealth.Proofs.FindingOrder
open CodeHealth.Proofs.Resolution CodeHealth.Proofs.RuleSettings

variable (config : Rule.Config) (p : Path) (content : String)

/-- The hits of a checker count: it is to look at the file, and the catalog knows its rule. -/
def counts (c : Checker) : Bool :=
  c.appliesTo p && config.isEnabled c.ruleId && Rule.isKnown c.ruleId

/-- The hits that a checker comes back with. -/
def hitsOf : Outcome → List Hit
  | .hits hs => hs
  | _ => []

/-- The hits that count, checker by checker, and those of each checker in its own order. -/
def countedHits (cs : List Checker) : List (Checker × Hit) :=
  (cs.filter (counts config p)).flatMap fun c =>
    (hitsOf (outcomeAt config p content c)).map fun h => (c, h)

structure TellsOf (c : Checker) (h : Hit) (f : Finding) : Prop where
  ruleId : f.ruleId = c.ruleId
  message : f.message = h.message
  suggestion : f.suggestion = h.suggestion
  file : f.file = p
  line : f.line = max 1 h.line
  column : f.column = max 1 h.column
  category : ∃ r, Rule.find? c.ruleId = some r ∧ f.category = some r.category
  severity : config.severityFor c.ruleId = some f.severity

/-- The order of line, column and rule. -/
def InOrder (a b : Finding) : Prop :=
  a.line < b.line ∨ a.line = b.line ∧
    (a.column < b.column ∨ a.column = b.column ∧ a.ruleId ≤ b.ruleId)

/-- One line, one column and one rule. -/
def SameKey (a b : Finding) : Prop :=
  a.line = b.line ∧ a.column = b.column ∧ a.ruleId = b.ruleId

def toFinding (x : Checker × Hit) : Finding where
  ruleId := x.1.ruleId
  message := x.2.message
  severity := (config.severityFor x.1.ruleId).getD .info
  file := p
  line := max x.2.line 1
  column := max x.2.column 1
  suggestion := x.2.suggestion
  category := (Rule.find? x.1.ruleId).map (·.category)

/-! ### Which hits are found -/

section

variable {config p content}

lemma tellsOf_toFinding {c : Checker} (h : counts config p c = true) (hit : Hit) :
    TellsOf config p c hit (toFinding config p (c, hit)) := by
  have hknown : Rule.isKnown c.ruleId = true := (Bool.and_eq_true_iff.mp h).2
  obtain ⟨r, hr⟩ := Option.isSome_iff_exists.mp hknown
  obtain ⟨s, hs⟩ := exists_severityFor config hr
  refine ⟨rfl, rfl, rfl, rfl, Nat.max_comm _ _, Nat.max_comm _ _, ⟨r, hr, ?_⟩, ?_⟩
  · simp only [toFinding, hr, Option.map_some]
  · simp only [toFinding, hs, Option.getD_some]

lemma findingsAt_eq {c : Checker} (h : Rule.isKnown c.ruleId = true) :
    findingsAt config p content c =
      (hitsOf (outcomeAt config p content c)).map fun hit => toFinding config p (c, hit) := by
  obtain ⟨r, hr⟩ := Option.isSome_iff_exists.mp h
  obtain ⟨s, hs⟩ := exists_severityFor config hr
  have hid := id_of_find? hr
  unfold findingsAt
  cases outcomeAt config p content c with
  | failed m => rfl
  | crashed m => rfl
  | hits hs' =>
    simp only [evaluateOutcome, findingsOfHits, hr, hitsOf]
    refine List.map_congr_left fun hit _ => ?_
    simp only [Finding.ofHit, toFinding, hr, hid, hs, Option.getD_some, Option.map_some]

lemma share_eq (c : Checker) : share config p content c =
    if counts config p c then
      (hitsOf (outcomeAt config p content c)).map fun hit => toFinding config p (c, hit)
    else [] := by
  rw [share, counts, Bool.and_comm (c.appliesTo p)]
  cases hknown : Rule.isKnown c.ruleId with
  | true => rw [Bool.and_true, findingsAt_eq hknown]
  | false =>
    have hr : Rule.find? c.ruleId = none := by simpa [Rule.isKnown] using hknown
    simp [findingsAt_of_unknown hr]

lemma findings_eq (cs : List Checker) : (evaluateFile cs config p content).findings =
    Finding.sort ((countedHits config p content cs).map (toFinding config p)) := by
  rw [findings_evaluateFile, countedHits, List.map_flatMap, flatMap_filter_eq]
  simp only [List.map_map, Function.comp_def, ← share_eq]

lemma of_mem_countedHits {cs : List Checker} {x : Checker × Hit}
    (h : x ∈ countedHits config p content cs) : x.1 ∈ cs ∧ counts config p x.1 = true := by
  obtain ⟨c, hc, hx⟩ := List.mem_flatMap.mp h
  obtain ⟨hit, -, rfl⟩ := List.mem_map.mp hx
  exact List.mem_filter.mp hc

end

/-! ### From which hit a finding comes -/

section

variable (hs : List (Checker × Hit))

/-- The place of the hit that a sorted finding comes from. -/
def sourceOf (i : Fin (Finding.sort (hs.map (toFinding config p))).length) : Fin hs.length :=
  (place _ i).cast (List.length_map _)

lemma get_sourceOf (i : Fin (Finding.sort (hs.map (toFinding config p))).length) :
    (Finding.sort (hs.map (toFinding config p))).get i =
      toFinding config p (hs.get (sourceOf config p hs i)) := by
  rw [← get_place, List.get_eq_getElem, List.getElem_map]
  rfl

lemma sourceOf_bijective : Function.Bijective (sourceOf config p hs) :=
  (finCongr (List.length_map _)).bijective.comp (place_bijective _)

lemma sourceOf_lt {i j : Fin (Finding.sort (hs.map (toFinding config p))).length} (hij : i < j)
    (hkey : SameKey ((Finding.sort (hs.map (toFinding config p))).get i)
      ((Finding.sort (hs.map (toFinding config p))).get j)) :
    sourceOf config p hs i < sourceOf config p hs j := by
  refine place_lt_of_tied _ hij ((tied_iff _ _).mpr ⟨?_, hkey⟩)
  rw [get_sourceOf, get_sourceOf]
  exact same_refl p

end

/-- **Every hit is accounted for.** The findings of a file stand in order. They correspond one to
one to the hits that count, each finding telling of its hit; and if two of them have one line, column
and rule, then their hits are of one checker and came in the same order. -/
theorem hits_accounted_for (cs : List Checker) (config : Rule.Config) (p : Path) (content : String)
    (hcs : (cs.map (·.ruleId)).Nodup) :
    let fs := (evaluateFile cs config p content).findings
    let hs := countedHits config p content cs
    fs.Pairwise InOrder ∧
    ∃ source : Fin fs.length → Fin hs.length, Function.Bijective source ∧
      (∀ i, TellsOf config p (hs.get (source i)).1 (hs.get (source i)).2 (fs.get i)) ∧
      ∀ i j, i < j → SameKey (fs.get i) (fs.get j) →
        (hs.get (source i)).1 = (hs.get (source j)).1 ∧ source i < source j := by
  have hfile : ∀ f ∈ (evaluateFile cs config p content).findings, f.file = p :=
    fun f hf => file_of_mem_evaluateFile hf
  rw [findings_eq] at hfile ⊢
  intro fs hs
  have hmem : ∀ k, (hs.get k).1 ∈ cs ∧ counts config p (hs.get k).1 = true := fun k =>
    of_mem_countedHits (List.get_mem hs k)
  have htells : ∀ i, TellsOf config p (hs.get (sourceOf config p hs i)).1
      (hs.get (sourceOf config p hs i)).2 (fs.get i) := fun i => by
    rw [get_sourceOf]
    exact tellsOf_toFinding (hmem _).2 _
  refine ⟨(sorted_sort _).imp_of_mem fun {a b} ha hb hab => ?_, sourceOf config p hs,
    sourceOf_bijective config p hs, htells,
    fun i j hij hkey => ⟨?_, sourceOf_lt config p hs hij hkey⟩⟩
  · exact (le_iff_of_file ((hfile a ha).trans (hfile b hb).symm)).mp hab
  · -- equal keys name one rule, and each rule has one checker
    have hid := (htells i).ruleId.symm.trans (hkey.2.2.trans (htells j).ruleId)
    exact List.inj_on_of_nodup_map hcs (hmem _).1 (hmem _).1 hid

/-- Checkers whose hits meet at the first place of a file only after they were moved there, and one
of a rule that the catalog does not know. -/
def nearTop : List Checker :=
  [⟨"no-var", fun _ => true, fun _ => .hits [⟨1, 1, "there", none⟩, ⟨0, 0, "moved", some "s"⟩]⟩,
    ⟨"ghost", fun _ => true, fun _ => .hits [⟨1, 1, "lost", none⟩]⟩,
    ⟨"loose-equality", fun _ => true, fun _ => .hits [⟨1, 0, "first", none⟩]⟩]

theorem hits_accounted_for_nearTop :
    let fs := (evaluateFile nearTop Rule.defaultConfig ⟨"a.js"⟩ "").findings
    (nearTop.map (·.ruleId)).Nodup ∧ fs.length = 3 ∧ fs.Pairwise InOrder := by
  intro fs
  have hcs : (nearTop.map (·.ruleId)).Nodup := by decide
  obtain ⟨horder, source, hbij, -, -⟩ :=
    hits_accounted_for nearTop Rule.defaultConfig ⟨"a.js"⟩ "" hcs
  have hcount : (countedHits Rule.defaultConfig ⟨"a.js"⟩ "" nearTop).length = 3 := by
    decide +kernel
  have hlen : fs.length = 3 := by
    rw [← hcount]
    simpa only [Fintype.card_fin] using Fintype.card_of_bijective hbij
  exact ⟨hcs, hlen, horder⟩

end CodeHealth.Proofs.HitAccounting
