import CodeHealth.FileSystem
import Mathlib.Data.List.Basic

/-!
Paths that lead along names.

A name that can stand in a directory has no slash in it and stands for itself among the components
of a path. So names that are joined by slashes are read back as they were, and behind the path of a
directory they lead on from where that path leads.
-/

namespace CodeHealth.Proofs.PathNames

open CodeHealth.Path CodeHealth.FileTree

variable {names place : List String} {root : Path} {fs : FileSystem} {tree : FileTree}

lemma endsWith_iff {s t : String} : s.endsWith t = true ↔ ∃ lead, s = lead ++ t := by
  rw [String.endsWith_eq_endsWith_toSlice, String.Slice.endsWith_string_iff, String.copy_toSlice]
  constructor
  · rintro ⟨lead, h⟩
    exact ⟨String.ofList lead, String.toList_injective (by simpa using h.symm)⟩
  · rintro ⟨lead, rfl⟩
    exact ⟨lead.toList, by simp⟩

/-! ### Pieces and components -/

lemma pieces_eq_iff {s : String} {ps : List String} :
    pieces s = ps ↔ s.toList.splitOn '/' = ps.map String.toList := by
  constructor
  · rintro rfl
    simp [pieces, Function.comp_def]
  · intro h
    simp [pieces, h, Function.comp_def]

lemma pieces_slash (s t : String) : pieces (s ++ "/" ++ t) = pieces s ++ pieces t := by
  simp [pieces, List.splitOn_append_cons_self]

lemma pieces_ofNames (hne : names ≠ []) (hnames : ∀ n ∈ names, IsName n) :
    pieces (ofNames names).text = names := by
  rw [pieces_eq_iff, ofNames, String.toList_intercalate]
  refine List.splitOn_intercalate '/' (fun l hl => ?_) (by simpa using hne)
  obtain ⟨n, hn, rfl⟩ := List.mem_map.mp hl
  exact (hnames n hn).2.2.2

lemma step?_of_isName {n : String} (h : IsName n) : step? n = some (.name n) := by
  rw [step?, if_neg (not_or.mpr ⟨h.1, h.2.1⟩), if_neg h.2.2.1]

lemma filterMap_step? (hnames : ∀ n ∈ names, IsName n) :
    names.filterMap step? = names.map .name := by
  induction names with
  | nil => rfl
  | cons n ns ih =>
    rw [List.filterMap_cons_some (step?_of_isName (hnames n List.mem_cons_self)),
      ih fun m hm => hnames m (List.mem_cons_of_mem n hm), List.map_cons]

/-- **Names that were joined are read back.** -/
lemma components_ofNames (hnames : ∀ n ∈ names, IsName n) :
    (ofNames names).components = names.map .name := by
  cases names with
  | nil => decide
  | cons n ns =>
    obtain ⟨hempty, hdot, -, -⟩ := hnames n List.mem_cons_self
    rw [components, pieces_ofNames (List.cons_ne_nil n ns) hnames]
    dsimp only
    rw [if_neg hempty, if_neg hdot, step?_of_isName (hnames n List.mem_cons_self),
      filterMap_step? fun m hm => hnames m (List.mem_cons_of_mem n hm)]
    rfl

/-! ### Joining -/

lemma components_of_pieces {p : Path} {first : String} {rest : List String}
    (h : pieces p.text = first :: rest) (hne : first = "" → rest ≠ []) :
    p.components = (if first = "" then [.root] else if first = "." then [.here]
      else (step? first).toList) ++ rest.filterMap step? := by
  rw [components, h]
  dsimp only
  by_cases hfirst : first = ""
  · rw [if_pos hfirst, if_pos hfirst, if_neg (by simpa using hne hfirst)]
    rfl
  · rw [if_neg hfirst, if_neg hfirst]
    split <;> rfl

lemma not_startsWith_slash (hne : names ≠ []) (hnames : ∀ n ∈ names, IsName n) :
    ¬ (ofNames names).text.startsWith "/" := by
  intro h
  obtain ⟨rest, hrest⟩ := String.startsWith_string_iff.mp h
  have hpieces : pieces (ofNames names).text = "" :: pieces (String.ofList rest) := by
    rw [pieces_eq_iff, ← hrest]
    simp [pieces, List.splitOn_cons_eq_if_modifyHead, Function.comp_def]
  rw [pieces_ofNames hne hnames] at hpieces
  exact (hnames "" (hpieces ▸ List.mem_cons_self)).1 rfl

/-- A path that is joined to another stands behind its pieces, or in place of the last one if there
is nothing behind the last slash. -/
lemma pieces_join (hroot : root.text ≠ "") (hne : names ≠ []) (hnames : ∀ n ∈ names, IsName n) :
    ∃ ps, pieces (root.join (ofNames names)).text = ps ++ names ∧
      (pieces root.text = ps ∨ ps ≠ [] ∧ pieces root.text = ps ++ [""]) := by
  have hpieces := pieces_ofNames hne hnames
  rw [join, if_neg (not_startsWith_slash hne hnames)]
  by_cases hslash : root.text.endsWith "/" = true
  · rw [if_pos (.inr hslash)]
    obtain ⟨lead, hlead⟩ := endsWith_iff.mp hslash
    refine ⟨pieces lead, ?_, .inr ⟨?_, ?_⟩⟩
    · rw [hlead, pieces_slash, hpieces]
    · simp [pieces, List.splitOn_ne_nil]
    · have h := pieces_slash lead ""
      rwa [String.append_empty, ← hlead] at h
  · rw [if_neg (not_or.mpr ⟨hroot, hslash⟩)]
    exact ⟨pieces root.text, by rw [pieces_slash, hpieces], .inl rfl⟩

lemma components_join (hroot : root.text ≠ "") (hne : names ≠ []) (hnames : ∀ n ∈ names, IsName n) :
    (root.join (ofNames names)).components = root.components ++ names.map .name := by
  obtain ⟨ps, hjoin, hpieces⟩ := pieces_join hroot hne hnames
  cases ps with
  | nil =>
    rcases hpieces with h | ⟨h, -⟩
    · simp [pieces, List.splitOn_ne_nil] at h
    · exact absurd rfl h
  | cons first rest =>
    rw [List.cons_append] at hjoin hpieces
    rw [components_of_pieces hjoin fun _ => by simp [hne], List.filterMap_append,
      filterMap_step? hnames, ← List.append_assoc]
    congr 1
    rcases hpieces with h | ⟨-, h⟩
    · refine (components_of_pieces h fun hfirst hrest => hroot ?_).symm
      subst hfirst hrest
      have hsplit : ['/'].intercalate (root.text.toList.splitOn '/') = root.text.toList :=
        List.intercalate_splitOn '/'
      rw [← String.toList_inj, ← hsplit, pieces_eq_iff.mp h]
      rfl
    · rw [components_of_pieces h fun _ => by simp, List.filterMap_append]
      simp [step?]

/-! ### Following names -/

lemma find?_append (tree : FileTree) (place names : List String) :
    tree.find? (place ++ names) = (tree.find? place).bind (·.find? names) := by
  induction place generalizing tree with
  | nil => rfl
  | cons name place ih =>
    rw [List.cons_append, FileTree.find?, FileTree.find?]
    cases tree.entry? name with
    | none => rfl
    | some child => exact ih child

lemma foldlM_step (h : fs.top.find? place = some tree) (hfound : (tree.find? names).isSome) :
    (names.map Component.name).foldlM fs.step place = .ok (place ++ names) := by
  induction names generalizing place tree with
  | nil => simp; rfl
  | cons name names ih =>
    rw [FileTree.find?] at hfound
    obtain ⟨child, hchild⟩ := Option.isSome_iff_exists.mp (Option.isSome_of_isSome_bind hfound)
    have hstep : fs.step place (.name name) = .ok (place ++ [name]) := by
      cases tree with
      | file content => exact absurd hchild (by simp [entries, entry?])
      | directory es =>
        rw [FileSystem.step, h]
        have hlookup : es.lookup name = some child := hchild
        simp [hlookup]
    have hnext : fs.top.find? (place ++ [name]) = some child := by
      rw [find?_append, h, Option.bind_some, FileTree.find?, hchild]
      rfl
    rw [hchild, Option.bind_some] at hfound
    rw [List.map_cons, List.foldlM_cons, hstep]
    exact (ih hnext hfound).trans (by simp)

lemma resolve_eq_ok {p : Path} : fs.resolve p = .ok place ↔
    p.text ≠ "" ∧ fs.follow p.components = .ok place ∧
      (p.asksDirectory → (fs.top.find? place).any (·.isDirectory)) := by
  unfold FileSystem.resolve
  by_cases hempty : p.text = ""
  · rw [if_pos hempty]
    exact ⟨nofun, fun h => absurd hempty h.1⟩
  rw [if_neg hempty]
  cases hfollow : fs.follow p.components with
  | error fault => exact ⟨nofun, nofun⟩
  | ok reached =>
    change (if (p.asksDirectory && !(fs.top.find? reached).any (·.isDirectory)) = true
      then Except.error FileFault.notDirectory else Except.ok reached) = .ok place ↔ _
    by_cases hasks : (p.asksDirectory && !(fs.top.find? reached).any (·.isDirectory)) = true
    · rw [if_pos hasks]
      refine ⟨nofun, fun ⟨_, hreached, hdirectory⟩ => ?_⟩
      cases hreached
      simp_all
    · rw [if_neg hasks]
      refine ⟨fun h => ?_, fun h => h.2.1⟩
      cases h
      exact ⟨hempty, rfl, fun h => by simpa [h] using hasks⟩

lemma not_asksDirectory_join (hroot : root.text ≠ "") (hne : names ≠ [])
    (hnames : ∀ n ∈ names, IsName n) : (root.join (ofNames names)).asksDirectory = false := by
  obtain ⟨ps, hjoin, -⟩ := pieces_join hroot hne hnames
  obtain ⟨lead, last, rfl⟩ := (List.eq_nil_or_concat' names).resolve_left hne
  obtain ⟨hempty, hdot, -, -⟩ := hnames last (by simp)
  rw [asksDirectory, hjoin, ← List.append_assoc, List.getLast?_concat]
  simp [hempty, hdot]

/-- **Behind the path of a directory, names lead on from where that path leads.** -/
lemma find?_join (hroot : fs.resolve root = .ok place) (htree : fs.top.find? place = some tree)
    (hne : names ≠ []) (hnames : ∀ n ∈ names, IsName n) (hfound : (tree.find? names).isSome) :
    fs.find? (root.join (ofNames names)) = tree.find? names := by
  obtain ⟨hempty, hfollow, -⟩ := resolve_eq_ok.mp hroot
  have hresolve : fs.resolve (root.join (ofNames names)) = .ok (place ++ names) := by
    refine resolve_eq_ok.mpr ⟨?_, ?_, fun h => ?_⟩
    · intro htext
      have hcomponents := components_join hempty hne hnames
      rw [components, htext] at hcomponents
      simp [pieces, hne] at hcomponents
    · rw [FileSystem.follow, components_join hempty hne hnames, List.foldlM_append]
      change (fs.follow root.components >>= _) = _
      rw [hfollow]
      exact foldlM_step htree hfound
    · rw [not_asksDirectory_join hempty hne hnames] at h
      cases h
  rw [FileSystem.find?, hresolve]
  change fs.top.find? (place ++ names) = _
  rw [find?_append, htree, Option.bind_some]

end CodeHealth.Proofs.PathNames
