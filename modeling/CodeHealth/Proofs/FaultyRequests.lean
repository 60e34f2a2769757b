import CodeHealth.Proofs.Resolution
import Mathlib

/-!
A request always gives a configuration, and what is wrong with it costs warnings alone.

A configuration settles the rules of the catalog, with the options that are given and understood.
So a name that the catalog does not know has nothing to act on, wherever it stands in a request:
with it or without it the configuration is the same, and there is one warning more. The warnings
are as many as the faults that are found by going through the request: its two lists, and what it
asks for each rule.
-/

namespace CodeHealth.Proofs.FaultyRequests

open CodeHealth.Rule CodeHealth.Proofs.Resolution

/-! ### Lists with one element more -/

/-- An element was put somewhere into a list. -/
def Added {α : Type} (x : α) (xs ys : List α) : Prop := ∃ a b, xs = a ++ b ∧ ys = a ++ x :: b

section Added

variable {α β : Type} {x : α} {xs ys : List α}

lemma Added.map (f : α → β) (h : Added x xs ys) : Added (f x) (xs.map f) (ys.map f) := by
  obtain ⟨a, b, rfl, rfl⟩ := h
  exact ⟨a.map f, b.map f, by simp, by simp⟩

lemma Added.filter {p : α → Bool} (hp : p x = true) (h : Added x xs ys) :
    Added x (xs.filter p) (ys.filter p) := by
  obtain ⟨a, b, rfl, rfl⟩ := h
  exact ⟨a.filter p, b.filter p, by simp, by simp [hp]⟩

lemma Added.append_left (zs : List α) (h : Added x xs ys) : Added x (zs ++ xs) (zs ++ ys) := by
  obtain ⟨a, b, rfl, rfl⟩ := h
  exact ⟨zs ++ a, b, by simp, by simp⟩

lemma Added.append_right (zs : List α) (h : Added x xs ys) : Added x (xs ++ zs) (ys ++ zs) := by
  obtain ⟨a, b, rfl, rfl⟩ := h
  exact ⟨a, b ++ zs, by simp, by simp⟩

lemma Added.mem_iff (h : Added x xs ys) (y : α) : y ∈ ys ↔ y = x ∨ y ∈ xs := by
  obtain ⟨a, b, rfl, rfl⟩ := h
  simp only [List.mem_append, List.mem_cons]
  tauto

/-- If one part of a list of parts has an element more, so has the whole. -/
lemma Added.flatMap {κ : Type} {key : κ → String} {g g' : κ → List α} {l : List κ} {r : κ}
    (hl : (l.map key).Nodup) (hr : r ∈ l) (hothers : ∀ s ∈ l, key s ≠ key r → g' s = g s)
    (h : Added x (g r) (g' r)) : Added x (l.flatMap g) (l.flatMap g') := by
  induction l with
  | nil => cases hr
  | cons s l ih =>
    rw [List.map_cons, List.nodup_cons] at hl
    rw [List.flatMap_cons, List.flatMap_cons]
    have htail : ∀ t ∈ l, key t ≠ key r → g' t = g t := fun t ht =>
      hothers t (List.mem_cons_of_mem _ ht)
    rcases List.mem_cons.mp hr with rfl | hr
    · have hrest : l.flatMap g' = l.flatMap g := List.flatMap_congr fun t ht =>
        htail t ht fun e => hl.1 (e ▸ List.mem_map_of_mem ht)
      rw [hrest]
      exact h.append_right _
    · have hne : key s ≠ key r := fun e => hl.1 (e ▸ List.mem_map_of_mem hr)
      rw [hothers s List.mem_cons_self hne]
      exact (ih hl.2 hr htail).append_left _

end Added

/-! ### What is asked of a configuration, and what is wrong with a request -/

/-- A configuration has settings for the rules of the catalog and for no other. The options of a
rule are those that are given for it and that it understands, with their values. -/
structure Settles (o : Overrides) (c : Config) : Prop where
  ids : c.rules.map Prod.fst = catalog.map (·.id)
  settings : ∀ r ∈ catalog, ∃ settings, c.rule? r.id = some settings ∧
    ∀ key v, settings.options.get? key = some v ↔
      key ∈ r.options ∧ ∃ own, o.rules.get? r.id = some own ∧ own.options.get? key = some v

/-- A request and the same request with one fault more, and the warning for the fault: an unknown
name in one of the two lists, something asked for an unknown rule, or a new option for a known rule
that does not understand it. -/
inductive Noise : Overrides → Overrides → Warning → Prop
  | rule {ids ids' : List String} {cats : Option (List String)} {rules : KeyMap RuleOverride}
      {id : String} : Added id ids ids' → isKnown id = false →
      Noise ⟨some ids, cats, rules⟩ ⟨some ids', cats, rules⟩ (.unknownRule id)
  | category {ids : Option (List String)} {names names' : List String}
      {rules : KeyMap RuleOverride} {name : String} : Added name names names' →
      name ∉ categories →
      Noise ⟨ids, some names, rules⟩ ⟨ids, some names', rules⟩ (.unknownCategory name)
  | override {o : Overrides} {id : String} {own : RuleOverride} : o.rules.get? id = none →
      isKnown id = false →
      Noise o { o with rules := o.rules.insert id own } (.overrideForUnknownRule id)
  | option {o : Overrides} {r : Entry} {key : String} {v : OptionValue} : r ∈ catalog →
      key ∉ r.options → (asked o r.id).options.get? key = none →
      Noise o
        { o with
          rules := o.rules.insert r.id
            { asked o r.id with options := (asked o r.id).options.insert key v } }
        (.unknownOption r.id key)

/-- Two lists have the same entries, in whatever order and however often, or there is none. -/
inductive SameEntries : Option (List String) → Option (List String) → Prop
  | absent : SameEntries none none
  | present {xs ys : List String} : (∀ x, x ∈ ys ↔ x ∈ xs) → SameEntries (some xs) (some ys)

/-- How many options are given for a rule that it does not understand. -/
def unknownFor (r : Entry) (own : RuleOverride) : ℕ :=
  own.options.keys.countP fun key => !r.options.contains key

/-- The faults in what is asked for one rule. If the catalog does not know the rule that is one
fault, whatever options are given for it. -/
def ownFaults (e : String × RuleOverride) : ℕ :=
  match find? e.1 with
  | none => 1
  | some r => unknownFor r e.2

/-- The faults in a request, apart from the name of the preset. -/
def faults (o : Overrides) : ℕ :=
  (o.enabledRules.getD []).countP (fun id => !isKnown id) +
    (o.categories.getD []).countP (fun name => !categories.contains name) +
    (o.rules.entries.map ownFaults).sum

/-! ### The configuration -/

section Config

variable {p : Preset} {o o' : Overrides} {r : Entry}

lemma find?_of_mem : ∀ r ∈ catalog, find? r.id = some r := by decide +kernel

lemma isKnown_of_mem (h : r ∈ catalog) : isKnown r.id = true := by
  rw [isKnown, find?_of_mem r h]
  rfl

lemma ne_of_unknown {id : String} (hr : r ∈ catalog) (h : isKnown id = false) : r.id ≠ id := by
  rintro rfl
  rw [isKnown_of_mem hr] at h
  cases h

lemma nodup_ids : (catalog.map (·.id)).Nodup := by decide +kernel

lemma get?_options (o : Overrides) (id key : String) (v : OptionValue) :
    (asked o id).options.get? key = some v ↔
      ∃ own, o.rules.get? id = some own ∧ own.options.get? key = some v := by
  unfold asked
  cases o.rules.get? id with
  | none => simp [KeyMap.get?, KeyMap.empty]
  | some own => simp

lemma settles_resolvePreset (p : Preset) (o : Overrides) : Settles o (resolvePreset p o) where
  ids := by simp only [resolvePreset, List.map_map, Function.comp_def]
  settings r hr := by
    refine ⟨resolveRule p o r, ?_, fun key v => ?_⟩
    · rw [rule?_resolvePreset, find?_of_mem r hr]
      rfl
    · rw [resolveRule, optionsFor_eq, Options.onlyKnown, KeyMap.get?_keepKeys, ← get?_options]
      by_cases hkey : key ∈ r.options
      · simp [hkey]
      · simp [hkey]

lemma resolvePreset_congr (hruled : ∀ r ∈ catalog, ruledBy o' r = ruledBy o r)
    (hcats : ∀ c ∈ categories, o'.admitsCategory c = o.admitsCategory c)
    (hasked : ∀ r ∈ catalog, (asked o' r.id).enabled = (asked o r.id).enabled ∧
      (asked o' r.id).severity = (asked o r.id).severity ∧
      (asked o' r.id).options.onlyKnown r.options = (asked o r.id).options.onlyKnown r.options) :
    resolvePreset p o' = resolvePreset p o := by
  have hrule : ∀ r ∈ catalog, resolveRule p o' r = resolveRule p o r := by
    intro r hr
    obtain ⟨hen, hsev, hopt⟩ := hasked r hr
    simp only [resolveRule, resolveEnabled_eq, resolveSeverity_eq, optionsFor_eq, hruled r hr, hen,
      hsev, hopt]
  have hcategories : (categories.map fun c => (c, o'.admitsCategory c)) =
      categories.map fun c => (c, o.admitsCategory c) :=
    List.map_congr_left fun c hc => by rw [hcats c hc]
  have hrules : (catalog.map fun r => (r.id, resolveRule p o' r)) =
      catalog.map fun r => (r.id, resolveRule p o r) :=
    List.map_congr_left fun r hr => by rw [hrule r hr]
  rw [resolvePreset, resolvePreset, hcategories, hrules]

end Config

section Lists

variable {o o' : Overrides}

lemma resolvePreset_lists (p : Preset) {ids ids' cats cats' : Option (List String)}
    {rules : KeyMap RuleOverride}
    (hids : ∀ r ∈ catalog, (ids'.map fun xs => xs.contains r.id) = ids.map fun xs =>
      xs.contains r.id)
    (hcats : ∀ c ∈ categories, (cats'.map fun xs => xs.contains c) = cats.map fun xs =>
      xs.contains c) :
    resolvePreset p ⟨ids', cats', rules⟩ = resolvePreset p ⟨ids, cats, rules⟩ := by
  have hadmits : ∀ c ∈ categories, (Overrides.mk ids' cats' rules).admitsCategory c =
      (Overrides.mk ids cats rules).admitsCategory c := by
    intro c hc
    have h := hcats c hc
    unfold Overrides.admitsCategory
    cases cats <;> cases cats' <;> simp_all
  refine resolvePreset_congr (fun r hr => ?_) hadmits fun _ _ => ⟨rfl, rfl, rfl⟩
  have h := hids r hr
  have hcat := hadmits r.category (category_mem_categories r hr)
  funext own
  unfold ruledBy
  rw [hcat]
  cases ids <;> cases ids' <;> simp_all

lemma contains_congr {xs ys : List String} {x : String} (h : x ∈ ys ↔ x ∈ xs) :
    ys.contains x = xs.contains x := by
  rw [Bool.eq_iff_iff, List.contains_iff_mem, List.contains_iff_mem, h]

lemma SameEntries.map_contains {xs ys : Option (List String)} (h : SameEntries xs ys)
    (x : String) : (ys.map fun zs => zs.contains x) = xs.map fun zs => zs.contains x := by
  cases h with
  | absent => rfl
  | present h => exact congrArg some (contains_congr (h x))

lemma Added.map_contains {x y : String} {xs ys : List String} (h : Added x xs ys) (hne : y ≠ x) :
    ((some ys).map fun zs => zs.contains y) = (some xs).map fun zs => zs.contains y := by
  refine congrArg some (contains_congr ?_)
  rw [h.mem_iff]
  exact or_iff_right hne

end Lists

/-! ### One fault more -/

section Noise

variable {o : Overrides} {id : String}

lemma asked_insert (own : RuleOverride) (q : String) :
    asked { o with rules := o.rules.insert id own } q = if q = id then own else asked o q := by
  unfold asked
  rw [KeyMap.get?_insert]
  split <;> rfl

lemma resolvePreset_noise (p : Preset) {o' : Overrides} {w : Warning} (h : Noise o o' w) :
    resolvePreset p o' = resolvePreset p o := by
  cases h with
  | rule hadd hid =>
    refine resolvePreset_lists p (fun r hr => ?_) fun _ _ => rfl
    exact hadd.map_contains (ne_of_unknown hr hid)
  | category hadd hname =>
    refine resolvePreset_lists p (fun _ _ => rfl) fun c hc => hadd.map_contains ?_
    rintro rfl
    exact hname hc
  | override _ hid =>
    refine resolvePreset_congr (fun _ _ => rfl) (fun _ _ => rfl) fun r hr => ?_
    rw [asked_insert, if_neg (ne_of_unknown hr hid)]
    exact ⟨rfl, rfl, rfl⟩
  | @option _ r key v hr hkey hnew =>
    refine resolvePreset_congr (fun _ _ => rfl) (fun _ _ => rfl) fun s hs => ?_
    rw [asked_insert]
    split
    case isFalse => exact ⟨rfl, rfl, rfl⟩
    case isTrue heq =>
      have hsr : s = r := List.inj_on_of_nodup_map nodup_ids hs hr heq
      subst hsr
      have hdrop : s.options.contains key = false := by simpa using hkey
      exact ⟨rfl, rfl, KeyMap.ext_entries (KeyMap.filter_insertEntry hdrop v _)⟩

/-- The warnings about a preset that is given by name. -/
def presetFaults (name : String) : List Warning :=
  match Preset.parse name with
  | .ok _ => []
  | .error message => [.unknownPreset message]

lemma resolve_snd (name : String) (o : Overrides) :
    (resolve name o).2 = presetFaults name ++ (unknownNames o ++ unknownOptions o) := by
  unfold resolve presetFaults
  cases Preset.parse name <;> rfl

lemma unknownOptions_congr {o o' : Overrides}
    (h : ∀ r ∈ catalog, (asked o' r.id).options = (asked o r.id).options) :
    unknownOptions o' = unknownOptions o :=
  List.flatMap_congr fun r hr => by rw [optionsFor_eq, optionsFor_eq, h r hr]

lemma keys_insert_of_new {α : Type} {t : KeyMap α} {k : String} (h : t.get? k = none) (v : α) :
    Added k t.keys (t.insert k v).keys := by
  obtain ⟨a, b, hes, hins⟩ := KeyMap.exists_insertEntry h v
  have hadd : Added (k, v) t.entries (t.insert k v).entries := ⟨a, b, hes, hins⟩
  exact hadd.map Prod.fst

lemma filter_keys_insert {α : Type} (t : KeyMap α) {keep : String → Bool} {k : String}
    (hk : keep k = false) (v : α) : (t.insert k v).keys.filter keep = t.keys.filter keep := by
  have h := congrArg (List.map Prod.fst) (KeyMap.filter_insertEntry hk v t.entries)
  rw [KeyMap.keys, KeyMap.keys, List.filter_map, List.filter_map]
  exact h

/-- **A fault more is a warning more.** -/
lemma added_noise {o' : Overrides} {w : Warning} (h : Noise o o' w) :
    Added w (unknownNames o ++ unknownOptions o) (unknownNames o' ++ unknownOptions o') := by
  -- the added entry shows in one part of the warnings and leaves the other parts as they are
  cases h with
  | rule hadd hid =>
    have hfault := (hadd.filter (p := fun id => !isKnown id) (by simp [hid])).map
      Warning.unknownRule
    exact ((hfault.append_right _).append_right _).append_right _
  | category hadd hname =>
    have hfault := (hadd.filter (p := fun c => !categories.contains c) (by simpa using hname)).map
      Warning.unknownCategory
    exact ((hfault.append_left _).append_right _).append_right _
  | @override _ id own hnew hid =>
    have hfault := ((keys_insert_of_new hnew own).filter (p := fun id => !isKnown id)
      (by simp [hid])).map Warning.overrideForUnknownRule
    have hoptions : unknownOptions ⟨o.enabledRules, o.categories, o.rules.insert id own⟩ =
        unknownOptions o :=
      unknownOptions_congr fun r hr => by rw [asked_insert, if_neg (ne_of_unknown hr hid)]
    rw [hoptions]
    exact (hfault.append_left _).append_right _
  | @option _ r key v hr hkey hnew =>
    have hnames (own : RuleOverride) :
        unknownNames ⟨o.enabledRules, o.categories, o.rules.insert r.id own⟩ = unknownNames o := by
      have hknown : (!isKnown r.id) = false := by rw [isKnown_of_mem hr]; rfl
      rw [unknownNames, filter_keys_insert o.rules hknown own]
      rfl
    rw [hnames]
    refine Added.append_left _ (Added.flatMap nodup_ids hr (fun s _ hne => ?_) ?_)
    · rw [optionsFor_eq, optionsFor_eq, asked_insert, if_neg hne]
    · rw [optionsFor_eq, optionsFor_eq, asked_insert, if_pos rfl]
      exact ((keys_insert_of_new hnew v).filter (by simpa using hkey)).map _

end Noise

/-! ### The number of faults -/

section Count

lemma sum_picked {rs : List Entry} (hrs : (rs.map (·.id)).Nodup) (id : String) (g : Entry → ℕ) :
    (rs.map fun r => if r.id = id then g r else 0).sum =
      ((rs.find? fun r => r.id = id).map g).getD 0 := by
  induction rs with
  | nil => rfl
  | cons r rs ih =>
    rw [List.map_cons, List.nodup_cons] at hrs
    rw [List.map_cons, List.sum_cons, List.find?_cons]
    by_cases h : r.id = id
    · have hnone : rs.find? (fun s => s.id = id) = none := List.find?_eq_none.mpr fun s hs => by
        have hne : s.id ≠ id := fun e => hrs.1 (h.trans e.symm ▸ List.mem_map_of_mem hs)
        simpa using hne
      rw [ih hrs.2, hnone, if_pos h, decide_eq_true h]
      rfl
    · rw [ih hrs.2, if_neg h, decide_eq_false h, Nat.zero_add]

/-- **Going through the rules and looking up what is asked for each** comes to the same as going
through what is asked and looking up the rule of each. -/
lemma sum_lookup {rs : List Entry} (hrs : (rs.map (·.id)).Nodup)
    {es : List (String × RuleOverride)} (hes : (es.map Prod.fst).Nodup)
    (g : Entry → RuleOverride → ℕ) :
    (rs.map fun r => ((es.lookup r.id).map (g r)).getD 0).sum =
      (es.map fun e => ((rs.find? fun r => r.id = e.1).map fun r => g r e.2).getD 0).sum := by
  induction es with
  | nil => simp
  | cons e es ih =>
    obtain ⟨id, own⟩ := e
    rw [List.map_cons, List.nodup_cons] at hes
    have hnone : es.lookup id = none := by
      rw [List.lookup_eq_none_iff]
      rintro ⟨q, own'⟩ hq
      have hne : id ≠ q := fun h => hes.1 (List.mem_map.mpr ⟨(q, own'), hq, h.symm⟩)
      simpa using hne
    have hsplit : ∀ r : Entry, ((((id, own) :: es).lookup r.id).map (g r)).getD 0 =
        (if r.id = id then g r own else 0) + ((es.lookup r.id).map (g r)).getD 0 := by
      intro r
      rw [KeyMap.lookup_cons]
      split
      case isTrue h => rw [h, hnone]; rfl
      case isFalse => rw [Nat.zero_add]
    simp only [hsplit, List.sum_map_add, List.map_cons, List.sum_cons]
    rw [sum_picked hrs id fun r => g r own, ih hes.2]

lemma nodup_keys {α : Type} (t : KeyMap α) : (t.entries.map Prod.fst).Nodup :=
  List.pairwise_map.mpr (t.sorted.imp fun h => String.ne_of_lt h)

lemma length_unknownOptions (o : Overrides) : (unknownOptions o).length =
    (o.rules.entries.map fun e => ((find? e.1).map fun r => unknownFor r e.2).getD 0).sum := by
  have hrule : ∀ r : Entry,
      (((o.optionsFor r).unknownKeys r.options).map (Warning.unknownOption r.id)).length =
        ((o.rules.entries.lookup r.id).map (unknownFor r)).getD 0 := by
    intro r
    rw [List.length_map, Options.unknownKeys, ← List.countP_eq_length_filter, Overrides.optionsFor,
      KeyMap.get?]
    cases o.rules.entries.lookup r.id <;> rfl
  rw [unknownOptions, List.length_flatMap]
  simp only [hrule]
  exact sum_lookup nodup_ids (nodup_keys o.rules) unknownFor

lemma ownFaults_eq (e : String × RuleOverride) : ownFaults e =
    (if isKnown e.1 then 0 else 1) + ((find? e.1).map fun r => unknownFor r e.2).getD 0 := by
  rw [ownFaults, isKnown]
  cases find? e.1 with
  | none => rfl
  | some r => exact (Nat.zero_add _).symm

/-- **There are as many warnings as faults.** -/
lemma length_unknown (o : Overrides) :
    (unknownNames o ++ unknownOptions o).length = faults o := by
  have hrules : (o.rules.keys.filter fun id => !isKnown id).length =
      (o.rules.entries.map fun e => if isKnown e.1 then 0 else 1).sum := by
    rw [← List.countP_eq_length_filter, KeyMap.keys, List.countP_map]
    induction o.rules.entries with
    | nil => rfl
    | cons e es ih =>
      rw [List.countP_cons, List.map_cons, List.sum_cons, ih, Nat.add_comm]
      cases h : isKnown e.1 <;> simp [h]
  have hown : (o.rules.entries.map ownFaults).sum =
      (o.rules.keys.filter fun id => !isKnown id).length + (unknownOptions o).length := by
    rw [hrules, length_unknownOptions, ← List.sum_map_add]
    exact congrArg List.sum (List.map_congr_left fun e _ => ownFaults_eq e)
  simp only [faults, hown, unknownNames, List.length_append, List.length_map,
    List.countP_eq_length_filter]
  omega

end Count

/-! ### Presets by name -/

section Name

variable {name : String}

/-- A name is one of the three presets, whatever its letter case and the blanks around it. -/
def NamesPreset (name : String) : Prop :=
  Text.lower (Text.trimmed name) ∈ ["minimal", "recommended", "strict"]

instance (name : String) : Decidable (NamesPreset name) := inferInstanceAs (Decidable (_ ∈ _))

lemma ofName?_isSome (s : String) :
    (Preset.ofName? s).isSome = true ↔ s ∈ ["minimal", "recommended", "strict"] := by
  unfold Preset.ofName?
  split <;> simp_all

lemma exists_parse (h : NamesPreset name) : ∃ p, Preset.parse name = .ok p := by
  obtain ⟨p, hp⟩ := Option.isSome_iff_exists.mp ((ofName?_isSome _).mpr h)
  exact ⟨p, by simp only [Preset.parse, hp]⟩

lemma parse_of_unknown (h : ¬ NamesPreset name) : Preset.parse name =
    .error ("unknown preset '" ++ Text.lower (Text.trimmed name) ++
      "'. Valid presets: minimal, recommended, strict") := by
  have hnone : Preset.ofName? (Text.lower (Text.trimmed name)) = none := by
    rw [← Option.not_isSome_iff_eq_none, ofName?_isSome]
    exact h
  simp only [Preset.parse, hnone]

lemma length_presetFaults (name : String) :
    (presetFaults name).length = if NamesPreset name then 0 else 1 := by
  unfold presetFaults
  split_ifs with h
  · obtain ⟨p, hp⟩ := exists_parse h
    rw [hp]
    rfl
  · rw [parse_of_unknown h]
    rfl

end Name

/-- **Faults cost warnings alone.** Every request gives a configuration that settles the rules of
the catalog and no other. With one fault more the configuration is the same and there is one warning
more; lists with the same entries give the same configuration; a name that is no preset stands for
the recommended one, with a warning in front that says so. There are as many warnings as faults. -/
theorem faults_cost_warnings (name : String) (o : Overrides) :
    Settles o (resolve name o).1 ∧
    (∀ o' w, Noise o o' w → (resolve name o').1 = (resolve name o).1 ∧
      Added w (resolve name o).2 (resolve name o').2) ∧
    (∀ ids' cats', SameEntries o.enabledRules ids' → SameEntries o.categories cats' →
      (resolve name ⟨ids', cats', o.rules⟩).1 = (resolve name o).1) ∧
    (¬ NamesPreset name → ∃ message, Preset.parse name = .error message ∧ resolve name o =
      ((resolve "recommended" o).1, .unknownPreset message :: (resolve "recommended" o).2)) ∧
    (resolve name o).2.length = (if NamesPreset name then 0 else 1) + faults o := by
  refine ⟨?_, fun o' w h => ⟨?_, ?_⟩, fun ids' cats' hids hcats => ?_, fun h => ?_, ?_⟩
  · rw [resolve_fst]
    exact settles_resolvePreset _ o
  · rw [resolve_fst, resolve_fst]
    exact resolvePreset_noise _ h
  · rw [resolve_snd, resolve_snd]
    exact (added_noise h).append_left _
  · rw [resolve_fst, resolve_fst]
    exact resolvePreset_lists _ (fun r _ => hids.map_contains r.id) fun c _ => hcats.map_contains c
  · have hknown : Preset.parse "recommended" = .ok .recommended := by decide +kernel
    refine ⟨_, parse_of_unknown h, ?_⟩
    simp only [resolve, parse_of_unknown h, hknown]
  · rw [resolve_snd, List.length_append, length_presetFaults, length_unknown]

/-- A request with faults of all kinds: an unknown rule that is listed twice, an unknown category,
options for an unknown rule, and one that a known rule does not understand. -/
def faulty : Overrides where
  enabledRules := some ["ghost", "no-var", "ghost"]
  categories := some ["vibes"]
  rules := KeyMap.ofList
    [("large-component", ⟨some true, none, KeyMap.ofList
        [("colour", .string "red"), ("max_lines", .integer 80)]⟩),
      ("ghost", ⟨none, none, KeyMap.ofList [("colour", .boolean true)]⟩)]

theorem faults_cost_warnings_faulty :
    let tidy : Overrides := ⟨some ["no-var", "ghost"], some ["vibes"], faulty.rules⟩
    let shaded : Overrides :=
      { faulty with
        rules := faulty.rules.insert largeComponent.id
          { asked faulty largeComponent.id with
            options := (asked faulty largeComponent.id).options.insert "shade" (.integer 1) } }
    let w := Warning.unknownOption largeComponent.id "shade"
    (¬ NamesPreset "paranoid" ∧ Noise faulty shaded w ∧
      SameEntries faulty.enabledRules tidy.enabledRules) ∧
    Settles faulty (resolve "paranoid" faulty).1 ∧
    (resolve "paranoid" faulty).1 = (resolve "recommended" faulty).1 ∧
    (resolve "paranoid" faulty).2.length = 6 ∧
    (resolve "paranoid" tidy).1 = (resolve "paranoid" faulty).1 ∧
    (resolve "paranoid" shaded).1 = (resolve "paranoid" faulty).1 ∧
    Added w (resolve "paranoid" faulty).2 (resolve "paranoid" shaded).2 := by
  intro tidy shaded w
  have hname : ¬ NamesPreset "paranoid" := by decide +kernel
  have hnoise : Noise faulty shaded w := .option (by decide +kernel) (by decide) rfl
  have hsame : SameEntries faulty.enabledRules tidy.enabledRules :=
    .present fun x => by simp only [List.mem_cons, List.not_mem_nil]; tauto
  have hfaults : faults faulty = 5 := by decide +kernel
  obtain ⟨hsettles, hmore, hlists, hpreset, hcount⟩ := faults_cost_warnings "paranoid" faulty
  obtain ⟨message, -, hresolve⟩ := hpreset hname
  have hone := hmore shaded w hnoise
  refine ⟨⟨hname, hnoise, hsame⟩, hsettles, by rw [hresolve], ?_,
    hlists _ _ hsame (.present fun _ => Iff.rfl), hone.1, hone.2⟩
  rw [hcount, if_neg hname, hfaults]

end CodeHealth.Proofs.FaultyRequests
