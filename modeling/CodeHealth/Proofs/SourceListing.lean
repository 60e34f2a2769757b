import CodeHealth.Project.Discovery
import CodeHealth.Proofs.FindingOrder
import CodeHealth.Proofs.PathNames

/-!
The files that are discovered.

Where no ignore file speaks, a walk comes to each file of a tree once, unless the file or a
directory on its way is hidden, or a directory on its way holds no source. Only names below the
root are looked at, so what is listed depends on nothing but the tree there.
-/

namespace CodeHealth.Proofs.SourceListing

open Discovery FileTree PathNames FindingOrder

variable {tree child : FileTree} {es : List (String × FileTree)} {name : String}
  {names place : List String} {scopes : List IgnoreScope}

/-! ### What is listed -/

def HoldsIgnoreFile (directory : FileTree) : Prop :=
  ∃ place ∈ [[".ignore"], [".gitignore"], [".git", "info", "exclude"]],
    (directory.bytes? place).isSome

instance : DecidablePred HoldsIgnoreFile := fun directory =>
  inferInstanceAs (Decidable (∃ place ∈ [[".ignore"], [".gitignore"], [".git", "info", "exclude"]],
    (directory.bytes? place).isSome))

inductive IgnoresNothing : FileTree → Prop where
  | file (content : ByteArray) : IgnoresNothing (.file content)
  | directory {entries : List (String × FileTree)}
    (here : ¬ HoldsIgnoreFile (.directory entries))
    (inner : ∀ e ∈ entries, IgnoresNothing e.2) : IgnoresNothing (.directory entries)

/-- A path leads to a directory, and no ignore file stands in it or above it. -/
structure IsPlainRoot (fs : FileSystem) (root : Path) (tree : FileTree) : Prop where
  found : fs.find? root = some tree
  isDirectory : tree.isDirectory = true
  wellFormed : tree.WellFormed
  below : IgnoresNothing tree
  above : ∀ place, fs.resolve root = .ok place → ∀ lead, lead <+: place →
    ∀ directory, fs.top.find? lead = some directory → ¬ HoldsIgnoreFile directory

/-- There is a file at a place. Neither it nor a directory on its way has a name that starts with a
dot, and no directory on its way is one that holds no source. -/
structure IsInSight (tree : FileTree) (names : List String) : Prop where
  isFile : (tree.bytes? names).isSome
  visible : ∀ name ∈ names, ∀ rest, name ≠ "." ++ rest
  notExcluded : ∀ lead name, lead ++ [name] <+: names →
    (tree.find? (lead ++ [name])).any (·.isDirectory) → name ∉ excludedDirectories

/-- A name of a script that was written by hand. -/
structure IsScriptName (name : String) : Prop where
  extension : ∃ stem ext, stem ≠ "" ∧ ext ∈ Path.scriptExtensions ∧ name = stem ++ "." ++ ext
  notDeclarations : ∀ stem, name ≠ stem ++ ".d.ts"
  notShortened : ∀ stem, name ≠ stem ++ ".min.js"

structure IsSourceFile (tree : FileTree) (names : List String) : Prop extends
    IsInSight tree names where
  isScript : ∃ lead last, names = lead ++ [last] ∧ IsScriptName last

/-! ### Names -/

lemma isHidden_iff : isHidden name = true ↔ ∃ rest, name = "." ++ rest := by
  rw [isHidden, String.startsWith_string_iff]
  constructor
  · rintro ⟨rest, h⟩
    exact ⟨String.ofList rest, String.toList_injective (by simpa using h.symm)⟩
  · rintro ⟨rest, rfl⟩
    exact ⟨rest.toList, by simp⟩

lemma isGenerated_iff : isGenerated name = true ↔
    (∃ stem, name = stem ++ ".d.ts") ∨ ∃ stem, name = stem ++ ".min.js" := by
  rw [isGenerated, Bool.or_eq_true, endsWith_iff, endsWith_iff]

lemma extensionOf?_eq_some {ext : String} : Path.extensionOf? name = some ext ↔
    '.' ∉ ext.toList ∧ ∃ stem, stem ≠ "" ∧ name = stem ++ "." ++ ext := by
  rw [Path.extensionOf?, List.span_eq_takeWhile_dropWhile]
  constructor
  · intro h
    -- the name is looked at from its end: what stands behind the last point, then what is left
    have hsplit := List.takeWhile_append_dropWhile (p := (· != '.')) (l := name.toList.reverse)
    have hstop := List.head?_dropWhile_not (· != '.') name.toList.reverse
    have hafter := List.all_takeWhile (p := (· != '.')) (l := name.toList.reverse)
    generalize name.toList.reverse.takeWhile (· != '.') = after at h hsplit hafter
    generalize name.toList.reverse.dropWhile (· != '.') = behind at h hsplit hstop
    cases behind with
    | nil => cases h
    | cons c stem =>
      obtain rfl : c = '.' := by simpa using hstop
      by_cases hstem : stem = []
      · simp [hstem] at h
      · obtain rfl : String.ofList after.reverse = ext := by simpa [hstem] using h
        have hdot : '.' ∉ after := fun hmem => by simpa using List.all_eq_true.mp hafter _ hmem
        refine ⟨by simpa using hdot, String.ofList stem.reverse, by simpa using hstem, ?_⟩
        apply String.toList_injective
        simpa using congrArg List.reverse hsplit.symm
  · rintro ⟨hdot, stem, hstem, rfl⟩
    have hreverse : (stem ++ "." ++ ext).toList.reverse =
        ext.toList.reverse ++ '.' :: stem.toList.reverse := by simp
    have hall : ∀ c ∈ ext.toList.reverse, (c != '.') = true := fun c hc => by
      rw [bne_iff_ne]
      rintro rfl
      exact hdot (List.mem_reverse.mp hc)
    rw [hreverse, List.takeWhile_append_of_pos hall, List.dropWhile_append_of_pos hall]
    simp [hstem]

lemma isSource_iff : isSource name = true ↔ IsScriptName name := by
  have hdot : ∀ ext ∈ Path.scriptExtensions, '.' ∉ ext.toList := by decide
  have hextension : (Path.extensionOf? name).any Path.scriptExtensions.contains = true ↔
      ∃ stem ext, stem ≠ "" ∧ ext ∈ Path.scriptExtensions ∧ name = stem ++ "." ++ ext := by
    rw [Option.any_eq_true]
    constructor
    · rintro ⟨ext, hext, hmem⟩
      obtain ⟨-, stem, hstem, hname⟩ := extensionOf?_eq_some.mp hext
      exact ⟨stem, ext, hstem, List.contains_iff_mem.mp hmem, hname⟩
    · rintro ⟨stem, ext, hstem, hmem, hname⟩
      exact ⟨ext, extensionOf?_eq_some.mpr ⟨hdot ext hmem, stem, hstem, hname⟩,
        List.contains_iff_mem.mpr hmem⟩
  rw [isSource, Bool.and_eq_true, Bool.not_eq_true', ← Bool.not_eq_true, isGenerated_iff,
    hextension]
  constructor
  · rintro ⟨hextension, hgenerated⟩
    exact ⟨hextension, fun stem h => hgenerated (.inl ⟨stem, h⟩),
      fun stem h => hgenerated (.inr ⟨stem, h⟩)⟩
  · rintro ⟨hextension, hdeclarations, hshortened⟩
    refine ⟨hextension, ?_⟩
    rintro (⟨stem, h⟩ | ⟨stem, h⟩)
    · exact hdeclarations stem h
    · exact hshortened stem h

/-! ### Entries -/

lemma entry?_eq_some_iff (hdistinct : (es.map (·.1)).Nodup) :
    FileTree.entry? (directory es) name = some child ↔ (name, child) ∈ es := by
  change es.lookup name = some child ↔ _
  induction es with
  | nil => simp
  | cons e es ih =>
    obtain ⟨k, t⟩ := e
    obtain ⟨hk, hes⟩ := List.nodup_cons.mp hdistinct
    rw [KeyMap.lookup_cons, List.mem_cons]
    by_cases h : name = k
    · subst h
      have hnot : (name, child) ∉ es := fun hm => hk (List.mem_map.mpr ⟨_, hm, rfl⟩)
      simp [hnot, eq_comm]
    · rw [if_neg h, ih hes]
      simp [h]

lemma find?_cons_of_mem (hdistinct : (es.map (·.1)).Nodup) (hmem : (name, child) ∈ es) :
    (directory es).find? (name :: names) = child.find? names := by
  rw [FileTree.find?, (entry?_eq_some_iff hdistinct).mpr hmem, Option.bind_some]

lemma isInSight_file {content : ByteArray} : IsInSight (.file content) names ↔ names = [] := by
  constructor
  · intro h
    cases names with
    | nil => rfl
    | cons name names => exact absurd h.isFile (by simp [bytes?, FileTree.find?, entry?, entries])
  · rintro rfl
    exact ⟨rfl, by simp, fun lead name h => absurd h (by simp)⟩

lemma not_isInSight_nil : ¬ IsInSight (directory es) [] := fun h => by
  have := h.isFile
  simp [bytes?, FileTree.find?] at this

lemma isInSight_cons (hdistinct : (es.map (·.1)).Nodup) :
    IsInSight (directory es) (name :: names) ↔ ∃ child, (name, child) ∈ es ∧
      (isHidden name = false ∧ (child.isDirectory → name ∉ excludedDirectories)) ∧
      IsInSight child names := by
  constructor
  · -- the first name is found, and what the whole path tells holds below it
    intro h
    have hfile := h.isFile
    rw [bytes?] at hfile
    obtain ⟨child, hchild⟩ : ∃ child, FileTree.entry? (directory es) name = some child := by
      cases hentry : FileTree.entry? (directory es) name with
      | none => simp [FileTree.find?, hentry] at hfile
      | some child => exact ⟨child, rfl⟩
    have hmem := (entry?_eq_some_iff hdistinct).mp hchild
    refine ⟨child, hmem, ⟨?_, fun hdirectory => ?_⟩, ?_, ?_, fun lead last hprefix hfound => ?_⟩
    · rw [← Bool.not_eq_true, isHidden_iff]
      rintro ⟨rest, hrest⟩
      exact h.visible name List.mem_cons_self rest hrest
    · refine h.notExcluded [] name (by simp) ?_
      rw [List.nil_append, find?_cons_of_mem hdistinct hmem]
      exact hdirectory
    · rwa [find?_cons_of_mem hdistinct hmem] at hfile
    · exact fun n hn => h.visible n (List.mem_cons_of_mem name hn)
    · refine h.notExcluded (name :: lead) last (by simpa using hprefix) ?_
      rwa [List.cons_append, find?_cons_of_mem hdistinct hmem]
  · rintro ⟨child, hmem, ⟨hhidden, hexcluded⟩, h⟩
    refine ⟨?_, List.forall_mem_cons.mpr ⟨fun rest hrest => ?_, h.visible⟩, ?_⟩
    · rw [bytes?, find?_cons_of_mem hdistinct hmem]
      exact h.isFile
    · exact Bool.false_ne_true (hhidden.symm.trans (isHidden_iff.mpr ⟨rest, hrest⟩))
    · -- the directories on the path are the first one and those below it
      intro lead last hprefix hfound
      cases lead with
      | nil =>
        obtain rfl : last = name := by simpa using hprefix
        rw [List.nil_append, find?_cons_of_mem hdistinct hmem] at hfound
        exact hexcluded hfound
      | cons first lead =>
        obtain ⟨rfl, hinner⟩ := List.cons_prefix_cons.mp hprefix
        rw [List.cons_append, find?_cons_of_mem hdistinct hmem] at hfound
        exact h.notExcluded lead last hinner hfound

/-! ### Ignore files -/

/-- The ignore files of a scope say nothing. -/
structure IsSilent (s : IgnoreScope) : Prop where
  ignore : s.ignore = []
  gitIgnore : s.gitIgnore = []
  gitExclude : s.gitExclude = []

lemma isSilent_ofDirectory (h : ¬ HoldsIgnoreFile tree) : IsSilent (.ofDirectory tree) := by
  have hfile : ∀ place ∈ [[".ignore"], [".gitignore"], [".git", "info", "exclude"]],
      tree.bytes? place = none := fun place hplace =>
    Option.not_isSome_iff_eq_none.mp fun hsome => h ⟨place, hplace, hsome⟩
  constructor <;> simp [IgnoreScope.ofDirectory, hfile]

lemma verdict?_of_silent (h : ∀ s ∈ scopes, IsSilent s) (isDirectory : Bool) :
    IgnoreScope.verdict? scopes name isDirectory = none := by
  have hsaid : ∀ file : IgnoreScope → IgnoreFile, (∀ s ∈ scopes, file s = []) →
      scopes.findSome? (fun s => (file s).verdict? (s.way ++ [name]) isDirectory) = none :=
    fun file hfile => List.findSome?_eq_none_iff.mpr fun s hs => by
      rw [hfile s hs]
      rfl
  unfold IgnoreScope.verdict?
  dsimp only
  rw [hsaid _ fun s hs => (h s hs).ignore, hsaid _ fun s hs => (h s hs).gitIgnore,
    hsaid _ fun s hs => (h s hs).gitExclude]
  rfl

lemma admits_of_silent (h : ∀ s ∈ scopes, IsSilent s) : admits scopes name tree = true ↔
    isHidden name = false ∧ (tree.isDirectory → name ∉ excludedDirectories) := by
  rw [admits, verdict?_of_silent h]
  cases isHidden name <;> simp [imp_iff_not_or]

lemma isSilent_enter (h : ∀ s ∈ scopes, IsSilent s) (name : String) :
    ∀ s ∈ scopes.map (·.enter name), IsSilent s := by
  intro entered hentered
  obtain ⟨s, hs, rfl⟩ := List.mem_map.mp hentered
  exact ⟨(h s hs).ignore, (h s hs).gitIgnore, (h s hs).gitExclude⟩

lemma isSilent_scopesAbove (top : FileTree) (place : List String)
    (h : ∀ lead, lead <+: place → ∀ directory, top.find? lead = some directory →
      ¬ HoldsIgnoreFile directory) :
    ∀ s ∈ scopesAbove top place, IsSilent s := by
  induction place generalizing top with
  | nil => simp [scopesAbove]
  | cons name rest ih =>
    intro s hs
    rw [scopesAbove] at hs
    dsimp only at hs
    rcases List.mem_append.mp hs with hs | hs
    · cases hchild : top.entry? name with
      | none => simp [hchild] at hs
      | some child =>
        rw [hchild] at hs
        refine ih child (fun lead hlead directory hfound => ?_) s hs
        refine h (name :: lead) (List.cons_prefix_cons.mpr ⟨rfl, hlead⟩) directory ?_
        rw [FileTree.find?, hchild, Option.bind_some, hfound]
    · have hsilent := isSilent_ofDirectory (h [] List.nil_prefix top rfl)
      rw [List.mem_singleton.mp hs]
      exact ⟨hsilent.ignore, hsilent.gitIgnore, hsilent.gitExclude⟩

/-! ### The walk -/

lemma walkEntries_eq_flatMap (scopes : List IgnoreScope) (es : List (String × FileTree)) :
    walkEntries scopes es = es.flatMap fun e =>
      if admits scopes e.1 e.2 then (walk (scopes.map (·.enter e.1)) e.2).map (e.1 :: ·)
      else [] := by
  induction es with
  | nil => rw [walkEntries, List.flatMap_nil]
  | cons e es ih => rw [walkEntries, ih, List.flatMap_cons]

lemma mem_walkEntries : place ∈ walkEntries scopes es ↔ ∃ e ∈ es, admits scopes e.1 e.2 = true ∧
    ∃ names ∈ walk (scopes.map (·.enter e.1)) e.2, place = e.1 :: names := by
  rw [walkEntries_eq_flatMap, List.mem_flatMap]
  refine exists_congr fun e => and_congr_right fun _ => ?_
  cases hadmits : admits scopes e.1 e.2 <;> simp [eq_comm]

/-- **A walk comes to the files in sight.** -/
lemma mem_walk_iff (hwf : tree.WellFormed) (hsilent : ∀ s ∈ scopes, IsSilent s)
    (hnothing : IgnoresNothing tree) : names ∈ walk scopes tree ↔ IsInSight tree names := by
  induction hwf generalizing scopes names with
  | file content => rw [walk, List.mem_singleton, isInSight_file]
  | @directory es hdistinct _ _ ih =>
    obtain ⟨⟩ | ⟨hnone, hinner⟩ := hnothing
    have hhere : ∀ s ∈ IgnoreScope.ofDirectory (directory es) :: scopes, IsSilent s :=
      List.forall_mem_cons.mpr ⟨isSilent_ofDirectory hnone, hsilent⟩
    rw [walk, mem_walkEntries]
    cases names with
    | nil => simp [not_isInSight_nil]
    | cons name names =>
      rw [isInSight_cons hdistinct]
      constructor
      · rintro ⟨⟨name', child⟩, hmem, hadmits, _, hwalk, heq⟩
        obtain ⟨rfl, rfl⟩ := List.cons.inj heq
        exact ⟨child, hmem, (admits_of_silent hhere).mp hadmits,
          (ih _ hmem (isSilent_enter hhere name) (hinner _ hmem)).mp hwalk⟩
      · rintro ⟨child, hmem, hadmitted, hsight⟩
        exact ⟨(name, child), hmem, (admits_of_silent hhere).mpr hadmitted, names,
          (ih _ hmem (isSilent_enter hhere name) (hinner _ hmem)).mpr hsight, rfl⟩

/-- **A walk comes to nothing twice.** -/
lemma nodup_walk (hwf : tree.WellFormed) (scopes : List IgnoreScope) :
    (walk scopes tree).Nodup := by
  induction hwf generalizing scopes with
  | file content => simp [walk]
  | @directory es hdistinct _ _ ih =>
    rw [walk, walkEntries_eq_flatMap, List.nodup_flatMap]
    constructor
    · intro e he
      split
      · exact (ih e he _).map List.cons_injective
      · exact List.nodup_nil
    · -- what an entry adds starts with its name
      refine (List.pairwise_map.mp hdistinct).imp fun {a b} hne place ha hb => hne ?_
      simp only [List.mem_ite_nil_right, List.mem_map] at ha hb
      obtain ⟨-, rest, -, rfl⟩ := ha
      obtain ⟨-, rest', -, heq⟩ := hb
      exact (List.cons.inj heq).1.symm

/-! ### What is discovered -/

lemma isName_of_find? (hwf : tree.WellFormed) (hfound : (tree.find? names).isSome) :
    ∀ n ∈ names, IsName n := by
  induction names generalizing tree with
  | nil => simp
  | cons name names ih =>
    rw [FileTree.find?] at hfound
    obtain ⟨child, hchild⟩ := Option.isSome_iff_exists.mp (Option.isSome_of_isSome_bind hfound)
    rw [hchild, Option.bind_some] at hfound
    cases hwf with
    | file content => simp [entries, entry?] at hchild
    | @directory es hdistinct hnames hinner =>
      have hmem := (entry?_eq_some_iff hdistinct).mp hchild
      exact List.forall_mem_cons.mpr ⟨hnames _ hmem, ih (hinner _ hmem) hfound⟩

lemma IsInSight.find?_isSome (h : IsInSight tree names) : (tree.find? names).isSome := by
  have hfile := h.isFile
  rw [bytes?] at hfile
  cases hfound : tree.find? names with
  | none => simp [hfound] at hfile
  | some _ => rfl

/-! ### Order -/

lemma pairwise_lt_mergeSort {ps : List Path} (h : (ps.map Path.components).Nodup) :
    (ps.mergeSort Path.le).Pairwise fun a b => a.compare b = .lt := by
  have hdistinct : ((ps.mergeSort Path.le).map Path.components).Nodup :=
    ((List.mergeSort_perm ps Path.le).map Path.components).nodup_iff.mpr h
  have hsorted := List.pairwise_mergeSort path_le_trans path_le_total ps
  refine (hsorted.and (List.pairwise_map.mp hdistinct)).imp fun {a b} ⟨hle, hne⟩ => ?_
  rw [ne_eq, ← same_iff, ← compare_eq_iff_same] at hne
  rw [Path.le] at hle
  cases hcompare : a.compare b <;> simp_all

lemma eq_of_pairwise_lt {ps qs : List Path} (hps : ps.Pairwise fun a b => a.compare b = .lt)
    (hqs : qs.Pairwise fun a b => a.compare b = .lt) (h : ∀ p, p ∈ ps ↔ p ∈ qs) : ps = qs := by
  have hirrefl : ∀ a : Path, a.compare a ≠ .lt := fun a => by
    rw [(compare_eq_iff_same a a).mpr (same_refl a)]
    decide
  have hnodup : ∀ {l : List Path}, (l.Pairwise fun a b => a.compare b = .lt) → l.Nodup := by
    intro l hl
    refine List.Pairwise.imp ?_ hl
    rintro a _ hlt rfl
    exact hirrefl a hlt
  refine List.Perm.eq_of_pairwise (fun a b _ _ hab hba => ?_) hps hqs
    ((List.perm_ext_iff_of_nodup (hnodup hps) (hnodup hqs)).mpr h)
  have hswap : b.compare a = (a.compare b).swap := Std.OrientedCmp.eq_swap
  rw [hswap, hab] at hba
  cases hba

/-! ### Discovery -/

section

variable {fs : FileSystem} {root : Path}

lemma discover_eq_error (fault : MissingRoot) :
    discover fs root = .error fault ↔ fault = ⟨root⟩ ∧ fs.isDirectory root = false := by
  rw [discover, FileSystem.isDirectory, FileSystem.find?]
  cases fs.resolve root with
  | error _ => simp [eq_comm]
  | ok place =>
    dsimp only
    cases (fs.top.find? place).any (·.isDirectory) <;> simp [eq_comm]

lemma IsPlainRoot.exists_place (h : IsPlainRoot fs root tree) : ∃ place,
    fs.resolve root = .ok place ∧ fs.top.find? place = some tree ∧
      (∀ s ∈ scopesAbove fs.top place, IsSilent s) ∧
      discover fs root = .ok ⟨paths fs.top place, readBelow fs root⟩ := by
  have hfound := h.found
  rw [FileSystem.find?] at hfound
  cases hresolve : fs.resolve root with
  | error fault => rw [hresolve] at hfound; cases hfound
  | ok place =>
    rw [hresolve] at hfound
    refine ⟨place, rfl, hfound, isSilent_scopesAbove fs.top place (h.above place hresolve), ?_⟩
    rw [discover, hresolve]
    dsimp only at hfound ⊢
    rw [hfound, Option.any_some, if_pos h.isDirectory]

lemma IsSourceFile.components (hwf : tree.WellFormed) (h : IsSourceFile tree names) :
    (Path.ofNames names).components = names.map .name :=
  components_ofNames (isName_of_find? hwf h.toIsInSight.find?_isSome)

section

variable {top : FileTree} (hwf : tree.WellFormed) (hnothing : IgnoresNothing tree)
  (htree : top.find? place = some tree) (hsilent : ∀ s ∈ scopesAbove top place, IsSilent s)
include hwf hnothing htree hsilent

lemma mem_places : names ∈ places top place ↔ IsSourceFile tree names := by
  rw [places, htree]
  dsimp only
  rw [List.mem_filter, mem_walk_iff hwf hsilent hnothing, Option.any_eq_true]
  constructor
  · rintro ⟨hsight, last, hlast, hsource⟩
    obtain ⟨lead, rfl⟩ := List.getLast?_eq_some_iff.mp hlast
    exact ⟨hsight, lead, last, rfl, isSource_iff.mp hsource⟩
  · rintro ⟨hsight, lead, last, rfl, hscript⟩
    exact ⟨hsight, last, List.getLast?_concat, isSource_iff.mpr hscript⟩

lemma mem_paths {p : Path} :
    p ∈ paths top place ↔ ∃ names, IsSourceFile tree names ∧ p = Path.ofNames names := by
  rw [paths, List.mem_mergeSort, List.mem_map]
  refine exists_congr fun names => ?_
  rw [mem_places hwf hnothing htree hsilent, eq_comm]

lemma pairwise_lt_paths : (paths top place).Pairwise fun a b => a.compare b = .lt := by
  have hplaces : (places top place).Nodup := by
    rw [places, htree]
    exact (nodup_walk hwf _).filter _
  have hsource : ∀ names ∈ places top place,
      (Path.ofNames names).components = names.map .name := fun names h =>
    ((mem_places hwf hnothing htree hsilent).mp h).components hwf
  refine pairwise_lt_mergeSort ?_
  rw [List.map_map]
  refine hplaces.map_on fun a ha b hb heq => ?_
  rw [Function.comp_apply, Function.comp_apply, hsource a ha, hsource b hb] at heq
  exact List.map_injective_iff.mpr (fun _ _ h => Path.Component.name.inj h) heq

end

/-- **What is discovered below a root.** Discovery fails if and only if the root is no directory. If
no ignore file stands in the root or above it, the walk comes to each file in sight once, also to
one that is named like an excluded directory; listed are, in strict order and relative to the root,
the scripts among them that were written by hand. Any root with the same tree below it gives the
same list, whatever its own name and place are. -/
theorem discover_lists_sources (fs : FileSystem) (root : Path) :
    (∀ fault, discover fs root = .error fault ↔
      fault = ⟨root⟩ ∧ fs.isDirectory root = false) ∧
    ∀ tree, IsPlainRoot fs root tree → ∃ files, discover fs root = .ok files ∧
      files.paths.Pairwise (fun a b => a.compare b = .lt) ∧
      (∀ p, p ∈ files.paths ↔ ∃ names, IsSourceFile tree names ∧ p = Path.ofNames names) ∧
      (∀ names, IsSourceFile tree names →
        (Path.ofNames names).components = names.map .name ∧
        fs.find? (root.join (Path.ofNames names)) = tree.find? names) ∧
      (∀ place, fs.resolve root = .ok place →
        (walk (scopesAbove fs.top place) tree).Nodup ∧
        ∀ names, names ∈ walk (scopesAbove fs.top place) tree ↔ IsInSight tree names) ∧
      ∀ fs' root', IsPlainRoot fs' root' tree →
        ∃ files', discover fs' root' = .ok files' ∧ files'.paths = files.paths := by
  refine ⟨discover_eq_error, fun tree h => ?_⟩
  obtain ⟨place, hresolve, htree, hsilent, hdiscover⟩ := h.exists_place
  refine ⟨_, hdiscover, pairwise_lt_paths h.wellFormed h.below htree hsilent,
    fun p => mem_paths h.wellFormed h.below htree hsilent, fun names hsource => ?_, ?_, ?_⟩
  · have hfound := hsource.toIsInSight.find?_isSome
    obtain ⟨lead, last, rfl, -⟩ := hsource.isScript
    exact ⟨hsource.components h.wellFormed, find?_join hresolve htree (by simp)
      (isName_of_find? h.wellFormed hfound) hfound⟩
  · intro place' hplace'
    obtain rfl : place = place' := Except.ok.inj (hresolve.symm.trans hplace')
    exact ⟨nodup_walk h.wellFormed _, fun names => mem_walk_iff h.wellFormed hsilent h.below⟩
  · intro fs' root' h'
    obtain ⟨place', -, htree', hsilent', hdiscover'⟩ := h'.exists_place
    have hsame : paths fs'.top place' = paths fs.top place :=
      eq_of_pairwise_lt (pairwise_lt_paths h.wellFormed h.below htree' hsilent')
        (pairwise_lt_paths h.wellFormed h.below htree hsilent) fun p =>
          (mem_paths h.wellFormed h.below htree' hsilent').trans
            (mem_paths h.wellFormed h.below htree hsilent).symm
    exact ⟨_, hdiscover', hsame⟩

end

def single (name : String) : FileTree := .directory [(name, .file .empty)]

/-- A project with a hidden directory, one that holds no source, and a file that is named so. -/
def project : FileTree := .directory [(".cache", single "a.ts"), ("build", .file .empty),
  ("out", single "b.js"), ("src", single "App.tsx")]

/-- A directory for builds that holds the project. -/
def builds : FileSystem := ⟨.directory [("dist", project)], []⟩

lemma wellFormed_single (h : IsName name) : (single name).WellFormed :=
  .directory (by simp) (by simpa using h) (by simpa using .file _)

lemma resolve_dist : builds.resolve ⟨"dist"⟩ = .ok ["dist"] := by decide +kernel

lemma isPlainRoot_dist : IsPlainRoot builds ⟨"dist"⟩ project where
  found := by
    rw [FileSystem.find?, resolve_dist]
    rfl
  isDirectory := rfl
  wellFormed := by
    refine .directory (by decide) (by simp [IsName]) ?_
    simp only [List.forall_mem_cons]
    exact ⟨wellFormed_single (by simp [IsName]), .file _, wellFormed_single (by simp [IsName]),
      wellFormed_single (by simp [IsName]), List.forall_mem_nil _⟩
  below := by
    have hsingle : ∀ name ∈ ["a.ts", "b.js", "App.tsx"], IgnoresNothing (single name) := by
      intro name hname
      refine .directory ?_ (by simpa using .file _)
      revert name
      decide +kernel
    refine .directory (by decide +kernel) ?_
    simp only [List.forall_mem_cons]
    exact ⟨hsingle _ (by simp), .file _, hsingle _ (by simp), hsingle _ (by simp), List.forall_mem_nil _⟩
  above := by
    intro place hplace lead hlead directory hfound
    obtain rfl : ["dist"] = place := Except.ok.inj (resolve_dist.symm.trans hplace)
    have hall : ∀ lead ∈ ["dist"].inits, ∀ directory ∈ builds.top.find? lead,
        ¬ HoldsIgnoreFile directory := by
      decide +kernel
    exact hall lead ((List.mem_inits _ _).mpr hlead) directory hfound

theorem discover_lists_sources_of_dist : IsPlainRoot builds ⟨"dist"⟩ project ∧
    ∃ files, discover builds ⟨"dist"⟩ = .ok files ∧ ⟨"src/App.tsx"⟩ ∈ files.paths := by
  have hsight : IsInSight project ["src", "App.tsx"] := by
    refine (isInSight_cons (by decide)).mpr
      ⟨single "App.tsx", by simp, ⟨by decide +kernel, by decide +kernel⟩, ?_⟩
    refine (isInSight_cons (by decide)).mpr
      ⟨.file .empty, by simp, ⟨by decide +kernel, by decide +kernel⟩, isInSight_file.mpr rfl⟩
  have hscript : IsScriptName "App.tsx" := isSource_iff.mp (by decide +kernel)
  obtain ⟨files, hfiles, -, hmem, -⟩ :=
    (discover_lists_sources builds ⟨"dist"⟩).2 project isPlainRoot_dist
  exact ⟨isPlainRoot_dist, files, hfiles,
    (hmem _).mpr ⟨_, ⟨hsight, ["src"], "App.tsx", rfl, hscript⟩, by decide⟩⟩

end CodeHealth.Proofs.SourceListing
