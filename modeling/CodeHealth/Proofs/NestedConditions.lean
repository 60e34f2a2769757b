import CodeHealth.Proofs.ConditionalCalls
import CodeHealth.Proofs.TreeAddresses

/-!
Calls of hooks under a condition, in a tree.

Functions and conditions are the nodes that decide. A call is told if of the nodes above it that
decide the nearest is a condition. So nodes that do not decide may be put between a call and a
condition without a difference, and a function hides from what is inside of it all that is above.
-/

namespace CodeHealth.Proofs.NestedConditions

open CodeHealth.Check CodeHealth.Script CodeHealth.Text CodeHealth.Proofs.TreeAddresses

/-! ### What is above a call -/

/-- A kind of node that decides whether what is below it is conditional. -/
def Decides (k : Kind) : Prop := k.isFunctionBoundary = true ∨ k.isConditional = true

instance (k : Kind) : Decidable (Decides k) := inferInstanceAs (Decidable (_ ∨ _))

/-- Of the kinds above a node, from the root down, the one at an index is a condition, and none
behind it decides. -/
structure NearestAt (ks : List Kind) (d : ℕ) : Prop where
  condition : ks[d]?.any Kind.isConditional = true
  behind : ∀ k ∈ ks.drop (d + 1), ¬ Decides k

/-- What is below these kinds is conditional: the nearest that decides is a condition. -/
def UnderCondition (ks : List Kind) : Prop := ∃ d, NearestAt ks d

lemma not_isConditional_of_boundary {k : Kind} (h : k.isFunctionBoundary = true) :
    k.isConditional = false := by
  cases k <;> first | rfl | cases h

lemma not_underCondition_nil : ¬ UnderCondition [] := by
  rintro ⟨d, h, -⟩
  rw [List.getElem?_nil] at h
  cases h

lemma nearestAt_concat_self {ks : List Kind} {k : Kind} (h : k.isConditional = true) :
    NearestAt (ks ++ [k]) ks.length := by
  refine ⟨?_, fun k' hk' => ?_⟩
  · rw [List.getElem?_concat_length, Option.any_some, h]
  · rw [List.drop_of_length_le (by simp)] at hk'
    cases hk'

lemma nearestAt_concat_of_lt {ks : List Kind} {k : Kind} {d : ℕ} (hd : d < ks.length) :
    NearestAt (ks ++ [k]) d ↔ NearestAt ks d ∧ ¬ Decides k := by
  have hget : (ks ++ [k])[d]? = ks[d]? := List.getElem?_append_left hd
  have hdrop : (ks ++ [k]).drop (d + 1) = ks.drop (d + 1) ++ [k] :=
    List.drop_append_of_le_length hd
  constructor
  · rintro ⟨hcondition, hbehind⟩
    rw [hget] at hcondition
    rw [hdrop, List.forall_mem_append, List.forall_mem_singleton] at hbehind
    exact ⟨⟨hcondition, hbehind.1⟩, hbehind.2⟩
  · rintro ⟨⟨hcondition, hbehind⟩, hk⟩
    refine ⟨hget ▸ hcondition, ?_⟩
    rw [hdrop, List.forall_mem_append, List.forall_mem_singleton]
    exact ⟨hbehind, hk⟩

lemma NearestAt.lt_length {ks : List Kind} {d : ℕ} (h : NearestAt ks d) : d < ks.length := by
  by_contra! hle
  have hcondition := h.condition
  rw [List.getElem?_eq_none hle] at hcondition
  cases hcondition

/-- **One more node above a call** settles by itself whether the call is conditional, or it does not
decide and leaves that to the others. -/
lemma underCondition_concat (ks : List Kind) (k : Kind) :
    UnderCondition (ks ++ [k]) ↔
      k.isConditional = true ∨ ¬ Decides k ∧ UnderCondition ks := by
  constructor
  · rintro ⟨d, h⟩
    have hlt := h.lt_length
    rw [List.length_append, List.length_singleton] at hlt
    rcases Nat.lt_succ_iff_lt_or_eq.mp hlt with hd | rfl
    · obtain ⟨hnearest, hk⟩ := (nearestAt_concat_of_lt hd).mp h
      exact .inr ⟨hk, d, hnearest⟩
    · left
      have hcondition := h.condition
      rwa [List.getElem?_concat_length, Option.any_some] at hcondition
  · rintro (h | ⟨hk, d, h⟩)
    · exact ⟨ks.length, nearestAt_concat_self h⟩
    · exact ⟨d, (nearestAt_concat_of_lt h.lt_length).mpr ⟨h, hk⟩⟩

lemma foldl_below_iff (ks : List Kind) :
    ks.foldl below none = some true ↔ UnderCondition ks := by
  induction ks using List.reverseRecOn with
  | nil => exact iff_of_false nofun not_underCondition_nil
  | append_singleton ks k ih =>
    rw [List.foldl_append, List.foldl_cons, List.foldl_nil, underCondition_concat, below, ← ih,
      Decides]
    cases hboundary : k.isFunctionBoundary with
    | true => simp [not_isConditional_of_boundary hboundary]
    | false => cases hcondition : k.isConditional <;> simp

lemma underCondition_insert {mid : List Kind} (hmid : ∀ k ∈ mid, ¬ Decides k)
    (outer inner : List Kind) :
    UnderCondition (outer ++ (mid ++ inner)) ↔ UnderCondition (outer ++ inner) := by
  induction inner using List.reverseRecOn with
  | nil =>
    rw [List.append_nil, List.append_nil]
    induction mid using List.reverseRecOn with
    | nil => rw [List.append_nil]
    | append_singleton mid k ih =>
      rw [List.forall_mem_append, List.forall_mem_singleton] at hmid
      have hk : k.isConditional ≠ true := fun h => hmid.2 (.inr h)
      rw [← List.append_assoc, underCondition_concat, ih hmid.1]
      simp [hk, hmid.2]
  | append_singleton inner k ih =>
    rw [← List.append_assoc, ← List.append_assoc, ← List.append_assoc, underCondition_concat,
      underCondition_concat, List.append_assoc, ih]

lemma underCondition_boundary {k : Kind} (hk : k.isFunctionBoundary = true)
    (outer inner : List Kind) :
    UnderCondition (outer ++ k :: inner) ↔ UnderCondition inner := by
  induction inner using List.reverseRecOn with
  | nil =>
    rw [underCondition_concat]
    simp [not_isConditional_of_boundary hk, Decides, hk, not_underCondition_nil]
  | append_singleton inner k' ih =>
    rw [← List.cons_append, ← List.append_assoc, underCondition_concat, underCondition_concat, ih]

/-- Where a condition further up is the nearest, nothing further down decides. -/
lemma NearestAt.not_underCondition {outer inner : List Kind} {d : ℕ}
    (h : NearestAt (outer ++ inner) d) (hd : d < outer.length) : ¬ UnderCondition inner := by
  rintro ⟨e, he, -⟩
  obtain ⟨k, hk, hcondition⟩ := (Option.any_eq_true _ _).mp he
  refine h.behind k ?_ (.inr hcondition)
  rw [List.drop_append_of_le_length hd]
  exact List.mem_append_right _ (List.mem_of_getElem? hk)

/-! ### Calls -/

/-- A node calls a name at a place: the name itself, or one behind a dot. -/
inductive Calls : Tree → String → Position → Prop
  | bare (q name p inner arguments) :
    Calls (.node .call q (.node (.identifier name) p inner :: arguments)) name p
  | behindDot (q r parts name p inner arguments) :
    Calls (.node .call q
      (.node .member r (parts ++ [.node (.property name) p inner]) :: arguments)) name p

lemma calledName?_eq_some {s : Tree} {name : String} {p : Position} :
    calledName? s = some (name, p) ↔ Calls s name p := by
  constructor
  · intro h
    obtain ⟨k, q, cs⟩ := s
    unfold calledName? at h
    split at h
    · rename_i hkind hhead
      cases hkind
      obtain ⟨arguments, rfl⟩ := List.head?_eq_some_iff.mp hhead
      cases h
      exact .bare ..
    · rename_i hkind hhead
      cases hkind
      obtain ⟨arguments, rfl⟩ := List.head?_eq_some_iff.mp hhead
      split at h
      · rename_i hlast
        obtain ⟨parts, rfl⟩ := List.getLast?_eq_some_iff.mp hlast
        cases h
        exact .behindDot ..
      · cases h
    · cases h
  · rintro (_ | _)
    · rfl
    · simp [calledName?, Tree.kind, Tree.children]

/-- A name starts with `use` and a capital of ASCII. -/
def IsHookName (name : String) : Prop :=
  ∃ c tail, name.toList = "use".toList ++ c :: tail ∧ 'A' ≤ c ∧ c ≤ 'Z'

lemma isHookName_iff (name : String) : isHookName name.toList = true ↔ IsHookName name := by
  have hcapital (c : Char) : isCapital c = true ↔ 'A' ≤ c ∧ c ≤ 'Z' := by simp [isCapital]
  simp only [ConditionalCalls.isHookName_iff, hcapital]
  rfl

/-- At an address of a tree a hook is called under a condition, and its name stands at a place. -/
structure CallsConditionally (t : Tree) (a : List ℕ) (name : String) (p : Position) : Prop where
  called : ∃ s, nodeAt? t a = some s ∧ Calls s name p
  hook : IsHookName name
  under : UnderCondition (kindsAbove t a)

structure HookCall where
  address : List ℕ
  name : String
  place : Position

def HookCall.hit (c : HookCall) : Hit := conditionalHit c.name c.place

/-- The call that is told at an address, if there is one. -/
def callAt? (t : Tree) (a : List ℕ) : Option HookCall :=
  ((nodeAt? t a).bind calledName?).bind fun (name, p) =>
    if isHookName name.toList && (kindsAbove t a).foldl below none == some true
    then some ⟨a, name, p⟩ else none

lemma callAt?_eq_some {t : Tree} {a : List ℕ} {c : HookCall} :
    callAt? t a = some c ↔ a = c.address ∧ CallsConditionally t a c.name c.place := by
  have htold (name : String) : (isHookName name.toList &&
      (kindsAbove t a).foldl below none == some true) = true ↔
        IsHookName name ∧ UnderCondition (kindsAbove t a) := by
    rw [Bool.and_eq_true, isHookName_iff, beq_iff_eq, foldl_below_iff]
  constructor
  · intro h
    obtain ⟨⟨name, p⟩, hcalled, h⟩ := Option.bind_eq_some_iff.mp h
    obtain ⟨s, hs, hcalled⟩ := Option.bind_eq_some_iff.mp hcalled
    dsimp only at h
    split_ifs at h with hif
    cases h
    obtain ⟨hhook, hunder⟩ := (htold name).mp hif
    exact ⟨rfl, ⟨s, hs, calledName?_eq_some.mp hcalled⟩, hhook, hunder⟩
  · rintro ⟨rfl, ⟨s, hs, hcalled⟩, hhook, hunder⟩
    rw [callAt?, hs, Option.bind_some, calledName?_eq_some.mpr hcalled, Option.bind_some]
    exact if_pos ((htold _).mpr ⟨hhook, hunder⟩)

lemma lookAt_eq (t : Tree) (a : List ℕ) :
    lookAt below conditionalHooksAt none t a = ((callAt? t a).map HookCall.hit).toList := by
  unfold lookAt callAt?
  cases nodeAt? t a with
  | none => rfl
  | some s =>
    simp only [Option.map_some, Option.getD_some, Option.bind_some, conditionalHooksAt]
    cases calledName? s with
    | none => rfl
    | some called =>
      simp only [Option.bind_some]
      split_ifs <;> rfl

def callsIn (t : Tree) : List HookCall := (addresses t).filterMap (callAt? t)

lemma conditionalHooksInTree_eq (t : Tree) :
    conditionalHooksInTree t = (callsIn t).map HookCall.hit := by
  rw [conditionalHooksInTree, visit_eq_flatMap, callsIn, List.map_filterMap,
    List.filterMap_eq_flatMap_toList]
  exact List.flatMap_congr fun a _ => lookAt_eq t a

lemma mem_callsIn {t : Tree} {c : HookCall} :
    c ∈ callsIn t ↔ CallsConditionally t c.address c.name c.place := by
  rw [callsIn, List.mem_filterMap]
  constructor
  · rintro ⟨a, -, hc⟩
    obtain ⟨rfl, hcalls⟩ := callAt?_eq_some.mp hc
    exact hcalls
  · intro hcalls
    obtain ⟨s, hs, -⟩ := hcalls.called
    exact ⟨c.address, mem_addresses.mpr ⟨s, hs⟩, callAt?_eq_some.mpr ⟨rfl, hcalls⟩⟩

lemma pairwise_callsIn (t : Tree) : (callsIn t).Pairwise fun c d => c.address < d.address := by
  refine List.Pairwise.filterMap _ (fun a b hab c hc d hd => ?_) (pairwise_addresses t)
  obtain ⟨rfl, -⟩ := callAt?_eq_some.mp hc
  obtain ⟨rfl, -⟩ := callAt?_eq_some.mp hd
  exact hab

/-! ### Nodes in between -/

/-- A node that is put around another one: its kind, its place, and the children before and behind
the other one. -/
structure Layer where
  kind : Kind
  start : Position
  before : List Tree
  behind : List Tree

namespace Layer

def around (l : Layer) (s : Tree) : Tree := .node l.kind l.start (l.before ++ s :: l.behind)

/-- The step from a layer to the node that it is around. -/
def step (l : Layer) : ℕ := l.before.length

end Layer

/-- A node with layers around it, the outermost first. -/
def wrap (ls : List Layer) (s : Tree) : Tree := ls.foldr Layer.around s

section Layers

variable {t s r : Tree} {a a' b : List ℕ} {name : String} {p : Position}

lemma child_around (l : Layer) (s : Tree) : (l.before ++ s :: l.behind)[l.step]? = some s := by
  rw [Layer.step, List.getElem?_append_right le_rfl, Nat.sub_self, List.getElem?_cons_zero]

lemma nodeAt?_wrap (ls : List Layer) (s : Tree) :
    nodeAt? (wrap ls s) (ls.map Layer.step) = some s := by
  induction ls with
  | nil => exact nodeAt?_nil s
  | cons l ls ih =>
    rw [wrap, List.foldr_cons, List.map_cons, Layer.around, nodeAt?_cons (child_around l _)]
    exact ih

lemma kindsAbove_wrap (ls : List Layer) (s : Tree) :
    kindsAbove (wrap ls s) (ls.map Layer.step) = ls.map Layer.kind := by
  induction ls with
  | nil => exact kindsAbove_nil s
  | cons l ls ih =>
    rw [wrap, List.foldr_cons, List.map_cons, Layer.around, kindsAbove_cons (child_around l _),
      List.map_cons]
    exact congrArg _ ih

lemma callsConditionally_append (h : nodeAt? t a = some s) :
    CallsConditionally t (a ++ b) name p ↔
      (∃ u, nodeAt? s b = some u ∧ Calls u name p) ∧ IsHookName name ∧
        UnderCondition (kindsAbove t a ++ kindsAbove s b) := by
  rw [← kindsAbove_append h, ← nodeAt?_append h]
  exact ⟨fun ⟨hcalled, hhook, hunder⟩ => ⟨hcalled, hhook, hunder⟩,
    fun ⟨hcalled, hhook, hunder⟩ => ⟨hcalled, hhook, hunder⟩⟩

lemma callsConditionally_replaceAt (h : nodeAt? t a = some s) (hr : nodeAt? r a' = some s) :
    CallsConditionally (replaceAt r t a) (a ++ (a' ++ b)) name p ↔
      (∃ u, nodeAt? s b = some u ∧ Calls u name p) ∧ IsHookName name ∧
        UnderCondition (kindsAbove t a ++ (kindsAbove r a' ++ kindsAbove s b)) := by
  rw [callsConditionally_append (nodeAt?_replaceAt h), kindsAbove_replaceAt h,
    nodeAt?_append hr, kindsAbove_append hr]

/-- **Nodes that do not decide may be put between a call and what is above it.** -/
lemma callsConditionally_wrap (h : nodeAt? t a = some s) {ls : List Layer}
    (hls : ∀ l ∈ ls, ¬ Decides l.kind) :
    CallsConditionally (replaceAt (wrap ls s) t a) (a ++ (ls.map Layer.step ++ b)) name p ↔
      CallsConditionally t (a ++ b) name p := by
  have hkinds : ∀ k ∈ ls.map Layer.kind, ¬ Decides k := by
    intro k hk
    obtain ⟨l, hl, rfl⟩ := List.mem_map.mp hk
    exact hls l hl
  rw [callsConditionally_replaceAt h (nodeAt?_wrap ls s), kindsAbove_wrap,
    underCondition_insert hkinds, callsConditionally_append h]

/-- **In a function those calls are conditional that are so without what is above it.** -/
lemma callsConditionally_boundary (h : nodeAt? t a = some s) {l : Layer}
    (hl : l.kind.isFunctionBoundary = true) :
    CallsConditionally (replaceAt (l.around s) t a) (a ++ l.step :: b) name p ↔
      CallsConditionally s b name p := by
  have hstep : CallsConditionally (replaceAt (l.around s) t a) (a ++ l.step :: b) name p ↔ _ :=
    callsConditionally_replaceAt h (nodeAt?_wrap [l] s)
  rw [kindsAbove_wrap] at hstep
  have hself : CallsConditionally s ([] ++ b) name p ↔ _ :=
    callsConditionally_append (nodeAt?_nil s)
  rw [kindsAbove_nil, List.nil_append, List.nil_append] at hself
  refine hstep.trans (Iff.trans ?_ hself.symm)
  have hhides := underCondition_boundary hl (kindsAbove t a) (kindsAbove s b)
  exact and_congr_right fun _ => and_congr_right fun _ => hhides

end Layers

/-- **Conditional calls are told by the nearest node that decides.** Told are, in the order of the
tree and each once, the calls of hooks of which the nearest node above that decides is a condition.
Whatever else is put around a node leaves the calls in it as they are; a function around it leaves
those that the node has by itself, and none whose condition is outside. -/
theorem check_conditionalCalls (src : Source) (t : Tree) :
    (∃ calls : List HookCall,
      conditionalHook.check { src with tree := some t } = .hits (calls.map HookCall.hit) ∧
      calls.Pairwise (fun c d => c.address < d.address) ∧
      ∀ c, c ∈ calls ↔ CallsConditionally t c.address c.name c.place) ∧
    ∀ a s, nodeAt? t a = some s → ∀ b name p,
      (∀ ls : List Layer, (∀ l ∈ ls, ¬ Decides l.kind) →
        (CallsConditionally (replaceAt (wrap ls s) t a) (a ++ (ls.map Layer.step ++ b)) name p ↔
          CallsConditionally t (a ++ b) name p)) ∧
      ∀ l : Layer, l.kind.isFunctionBoundary = true →
        (CallsConditionally (replaceAt (l.around s) t a) (a ++ l.step :: b) name p ↔
          CallsConditionally s b name p) ∧
        ∀ d < a.length, NearestAt (kindsAbove t (a ++ b)) d →
          ¬ CallsConditionally (replaceAt (l.around s) t a) (a ++ l.step :: b) name p := by
  refine ⟨⟨callsIn t, ?_, pairwise_callsIn t, fun c => mem_callsIn⟩,
    fun a s h b name p => ⟨fun ls hls => callsConditionally_wrap h hls,
      fun l hl => ⟨callsConditionally_boundary h hl, fun d hd hnearest hcalls => ?_⟩⟩⟩
  · exact congrArg Outcome.hits (conditionalHooksInTree_eq t)
  · have hinside := ((callsConditionally_boundary h hl).mp hcalls).under
    rw [kindsAbove_append h] at hnearest
    rw [← length_kindsAbove h] at hd
    exact hnearest.not_underCondition hd hinside

/-- The call of a hook without arguments. -/
def hookAt (name : String) (p : Position) : Tree :=
  .node .call p [.node (.identifier name) p [], .node .arguments p []]

/-- Two hooks, the second one behind a condition of its own. -/
def twoHooks : Tree :=
  .node .other ⟨2, 3⟩ [hookAt "useState" ⟨2, 3⟩,
    .node (.binary "&&") ⟨2, 15⟩ [.node (.identifier "a") ⟨2, 15⟩ [], hookAt "useRef" ⟨2, 20⟩]]

/-- Both of them under a condition. -/
def guarded : Tree :=
  .node .ifStatement ⟨1, 1⟩ [.node (.identifier "ok") ⟨1, 5⟩ [], twoHooks]

def blockLayer : Layer := ⟨.block, ⟨1, 9⟩, [], [.node .comment ⟨3, 1⟩ []]⟩

def bracketLayer : Layer := ⟨.parenthesized, ⟨1, 10⟩, [.node .comment ⟨1, 11⟩ []], []⟩

def callbackLayer : Layer := ⟨.arrow, ⟨1, 9⟩, [.node .arguments ⟨1, 9⟩ []], []⟩

/-- Brackets in a block hide nothing, and a function hides the condition that is above it. -/
theorem check_conditionalCalls_guarded :
    let source : Source := ⟨⟨"App.tsx"⟩, [], [], none, .empty⟩
    conditionalHook.check { source with tree := some guarded } =
      .hits [conditionalHit "useState" ⟨2, 3⟩, conditionalHit "useRef" ⟨2, 20⟩] ∧
    nodeAt? guarded [1] = some twoHooks ∧
    (∀ l ∈ [blockLayer, bracketLayer], ¬ Decides l.kind) ∧
    callbackLayer.kind.isFunctionBoundary = true ∧
    NearestAt (kindsAbove guarded [1, 0]) 0 ∧
    CallsConditionally (replaceAt (wrap [blockLayer, bracketLayer] twoHooks) guarded [1])
      [1, 0, 1, 0] "useState" ⟨2, 3⟩ ∧
    ¬ CallsConditionally (replaceAt (callbackLayer.around twoHooks) guarded [1]) [1, 1, 0]
      "useState" ⟨2, 3⟩ ∧
    CallsConditionally (replaceAt (callbackLayer.around twoHooks) guarded [1]) [1, 1, 1, 1]
      "useRef" ⟨2, 20⟩ := by
  intro source
  have hat : nodeAt? guarded [1] = some twoHooks := rfl
  have hlayers : ∀ l ∈ [blockLayer, bracketLayer], ¬ Decides l.kind := by decide
  have hcallback : callbackLayer.kind.isFunctionBoundary = true := rfl
  have hnearest : NearestAt (kindsAbove guarded [1, 0]) 0 := ⟨rfl, by decide⟩
  have hstate : CallsConditionally guarded [1, 0] "useState" ⟨2, 3⟩ :=
    ⟨⟨_, rfl, .bare ..⟩, (isHookName_iff _).mp (by decide +kernel), 0, hnearest⟩
  have href : CallsConditionally twoHooks [1, 1] "useRef" ⟨2, 20⟩ :=
    ⟨⟨_, rfl, .bare ..⟩, (isHookName_iff _).mp (by decide +kernel), 1, rfl, by decide⟩
  have hedits := (check_conditionalCalls source guarded).2 [1] twoHooks hat
  refine ⟨by decide +kernel, hat, hlayers, hcallback, hnearest, ?_, ?_, ?_⟩
  · exact ((hedits [0] _ _).1 _ hlayers).mpr hstate
  · exact ((hedits [0] _ _).2 _ hcallback).2 0 (by decide) hnearest
  · exact ((hedits [1, 1] _ _).2 _ hcallback).1.mpr href

end CodeHealth.Proofs.NestedConditions
