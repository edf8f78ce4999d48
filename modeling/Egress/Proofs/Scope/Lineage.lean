import Mathlib.Data.List.Infix
import Mathlib.Data.List.Induction
import Mathlib.Logic.Function.Basic
import Egress.Proofs.Connection.Filing
import Egress.Proofs.Scope
import Egress.Scenario.OnScopes

set_option autoImplicit false

namespace Egress

namespace Forest

-- Each token has a way of its own, from its root down to it. A step of the way is the number of the
-- scope that was made together with the token there; `n` scopes have been made.
structure Charts (f : Forest) (ways : List (List Nat)) (n : Nat) : Prop where
  length : ways.length = f.nodes.length
  distinct : ways.Nodup
  numbers : ∀ way ∈ ways, ∀ step ∈ way, step ≤ n
  roots : ∀ (token : Nat) (node : Node) way, f.nodes[token]? = some node → ways[token]? = some way →
    node.parent = none → ∃ step, way = [step]
  inner : ∀ (token : Nat) (node : Node) way parent, f.nodes[token]? = some node →
    ways[token]? = some way → node.parent = some parent →
    parent < token ∧ ∃ above step, ways[parent]? = some above ∧ way = above ++ [step]

-- The cancelled tokens are those at or below a place where a cancel was called.
structure Marks (f : Forest) (ways cancels : List (List Nat)) : Prop where
  called : ∀ top ∈ cancels, top ∈ ways
  exact : ∀ (token : Nat) way, ways[token]? = some way →
    (f.isCancelled token ↔ ∃ top ∈ cancels, top <+: way)

variable {f : Forest} {ways cancels : List (List Nat)} {way above : List Nat} {n token top : Nat}
  {node : Node}

namespace Charts

theorem planted (charts : f.Charts ways n) (there : ways[token]? = some way) :
    ∃ node, f.nodes[token]? = some node := by
  have inside := (List.getElem?_eq_some_iff.mp there).1
  rw [charts.length] at inside
  exact ⟨_, List.getElem?_eq_getElem inside⟩

theorem same_iff (charts : f.Charts ways n) (high : ways[top]? = some above)
    (low : ways[token]? = some way) : token = top ↔ above = way := by
  constructor
  · rintro rfl
    exact Option.some.inj (high.symm.trans low)
  · rintro rfl
    obtain ⟨inside, rfl⟩ := List.getElem?_eq_some_iff.mp high
    obtain ⟨within, same⟩ := List.getElem?_eq_some_iff.mp low
    exact charts.distinct.getElem_inj_iff.mp same

theorem nonempty (charts : f.Charts ways n) (there : ways[token]? = some way) : way ≠ [] := by
  obtain ⟨node, found⟩ := charts.planted there
  cases parent : node.parent with
  | none =>
    obtain ⟨step, rfl⟩ := charts.roots token node way found there parent
    simp
  | some p =>
    obtain ⟨-, above, step, -, rfl⟩ := charts.inner token node way p found there parent
    simp

-- A token is under another exactly if the way to it leads past the other.
theorem isUnder_iff (charts : f.Charts ways n) (high : ways[top]? = some above)
    (low : ways[token]? = some way) : f.isUnder top token ↔ above <+: way := by
  have here := charts.same_iff high low
  induction token using Nat.strong_induction_on generalizing way with
  | _ token ih =>
    obtain ⟨node, found⟩ := charts.planted low
    rw [isUnder, found, Option.bind_some]
    cases parent : node.parent with
    | none =>
      obtain ⟨step, rfl⟩ := charts.roots token node way found low parent
      simp [here, List.prefix_cons_iff, charts.nonempty high]
    | some p =>
      obtain ⟨older, upper, step, next, rfl⟩ := charts.inner token node way p found low parent
      have upwards := ih p older next (charts.same_iff high next)
      simp [here, older, upwards, List.prefix_concat_iff]

theorem fresh (charts : f.Charts ways n) (above : List Nat) : above ++ [n + 1] ∉ ways := by
  intro known
  have small := charts.numbers _ known (n + 1) (by simp)
  omega

theorem later (charts : f.Charts ways n) : f.Charts ways (n + 1) :=
  { charts with
    numbers := fun way known step borne => Nat.le_succ_of_le (charts.numbers way known step borne) }

theorem cancel (charts : f.Charts ways n) (top : Nat) : (f.cancel top).Charts ways n := by
  have before {token : Nat} {node : Node} (found : (f.cancel top).nodes[token]? = some node) :
      ∃ old, f.nodes[token]? = some old ∧ old.parent = node.parent := by
    rw [Forest.cancel, List.getElem?_mapIdx, Option.map_eq_some_iff] at found
    obtain ⟨old, was, rfl⟩ := found
    exact ⟨old, was, rfl⟩
  refine ⟨charts.length.trans (cancel_length f top).symm, charts.distinct, charts.numbers, ?_, ?_⟩
  · intro token node way found there parent
    obtain ⟨old, was, same⟩ := before found
    exact charts.roots token old way was there (same.trans parent)
  · intro token node way p found there parent
    obtain ⟨old, was, same⟩ := before found
    exact charts.inner token old way p was there (same.trans parent)

end Charts

theorem isCancelled_snoc (f : Forest) (node : Node) (token : Nat) :
    ({ nodes := f.nodes ++ [node] } : Forest).isCancelled token =
      if token = f.nodes.length then node.cancelled else f.isCancelled token := by
  split
  next last => simp [isCancelled, last]
  next other =>
    rcases Nat.lt_or_gt_of_ne other with inside | outside
    · rw [isCancelled, isCancelled, List.getElem?_append_left inside]
    · have past : (f.nodes ++ [node])[token]? = none := by
        rw [List.getElem?_eq_none_iff, List.length_append]
        exact outside
      rw [isCancelled, isCancelled, past, List.getElem?_eq_none (Nat.le_of_lt outside)]

theorem snoc_keeps {α : Type} {l : List α} {a b : α} {i : Nat} (there : l[i]? = some b) :
    (l ++ [a])[i]? = some b := by
  rw [List.getElem?_append_left (List.getElem?_eq_some_iff.mp there).1, there]

theorem snoc_cases {α : Type} {l : List α} {a b : α} {i : Nat} (there : (l ++ [a])[i]? = some b) :
    l[i]? = some b ∨ i = l.length ∧ a = b := by
  rcases Nat.lt_trichotomy i l.length with inside | last | outside
  · rw [List.getElem?_append_left inside] at there
    exact .inl there
  · subst last
    exact .inr ⟨rfl, by simpa using there⟩
  · have past : (l ++ [a])[i]? = none := by
      rw [List.getElem?_eq_none_iff, List.length_append]
      exact outside
    rw [past] at there
    cases there

theorem Charts.grow (charts : f.Charts ways n)
    (placed : node.parent = none ∧ above = [] ∨
      ∃ parent, node.parent = some parent ∧ ways[parent]? = some above) :
    ({ nodes := f.nodes ++ [node] } : Forest).Charts (ways ++ [above ++ [n + 1]]) (n + 1) := by
  have numbered : ∀ step ∈ above, step ≤ n := by
    rcases placed with ⟨-, rfl⟩ | ⟨parent, -, there⟩
    · simp
    · exact charts.numbers above (List.mem_of_getElem? there)
  have old {token : Nat} {made : Node} {way : List Nat} (there : ways[token]? = some way)
      (found : (f.nodes ++ [node])[token]? = some made) : f.nodes[token]? = some made := by
    have inside := (List.getElem?_eq_some_iff.mp there).1
    rwa [List.getElem?_append_left (charts.length ▸ inside)] at found
  have new {made : Node} (found : (f.nodes ++ [node])[ways.length]? = some made) :
      node = made := by
    rw [charts.length] at found
    simpa using found
  refine ⟨by simp [charts.length], ?distinct, ?numbers, ?roots, ?inner⟩
  case distinct =>
    rw [List.nodup_append]
    refine ⟨charts.distinct, by simp, ?_⟩
    rintro way known _ last rfl
    exact charts.fresh above (List.mem_singleton.mp last ▸ known)
  case numbers =>
    intro way known step borne
    rcases List.mem_append.mp known with was | last
    · exact Nat.le_succ_of_le (charts.numbers way was step borne)
    · rw [List.mem_singleton.mp last, List.mem_append, List.mem_singleton] at borne
      rcases borne with before | rfl
      · exact Nat.le_succ_of_le (numbered step before)
      · exact Nat.le_refl _
  case roots =>
    intro token made way found there parent
    rcases snoc_cases there with was | ⟨rfl, rfl⟩
    · exact charts.roots token made way (old was found) was parent
    · obtain rfl := new found
      rcases placed with ⟨-, rfl⟩ | ⟨p, some, -⟩
      · exact ⟨n + 1, rfl⟩
      · rw [parent] at some
        cases some
  case inner =>
    intro token made way p found there parent
    rcases snoc_cases there with was | ⟨rfl, rfl⟩
    · obtain ⟨older, upper, step, next, rfl⟩ :=
        charts.inner token made way p (old was found) was parent
      exact ⟨older, upper, step, snoc_keeps next, rfl⟩
    · obtain rfl := new found
      rcases placed with ⟨none, -⟩ | ⟨q, some, next⟩
      · rw [parent] at none
        cases none
      · obtain rfl := Option.some.inj (parent.symm.trans some)
        exact ⟨(List.getElem?_eq_some_iff.mp next).1, above, n + 1, snoc_keeps next, rfl⟩

namespace Marks

theorem grow (marks : f.Marks ways cancels) (charts : f.Charts ways n)
    (born : node.cancelled ↔ ∃ top ∈ cancels, top <+: above) :
    ({ nodes := f.nodes ++ [node] } : Forest).Marks (ways ++ [above ++ [n + 1]]) cancels := by
  refine ⟨fun top was => List.mem_append_left _ (marks.called top was), ?_⟩
  intro token way there
  rw [isCancelled_snoc]
  rcases snoc_cases there with was | ⟨rfl, rfl⟩
  · have inside := (List.getElem?_eq_some_iff.mp was).1
    rw [charts.length] at inside
    rw [if_neg (Nat.ne_of_lt inside)]
    exact marks.exact token way was
  · rw [if_pos charts.length, born]
    refine exists_congr fun top => and_congr_right fun was => ?_
    rw [List.prefix_concat_iff]
    have other : top ≠ above ++ [n + 1] :=
      fun same => charts.fresh above (same ▸ marks.called top was)
    simp [other]

theorem cancel (marks : f.Marks ways cancels) (charts : f.Charts ways n)
    (high : ways[top]? = some above) : (f.cancel top).Marks ways (cancels ++ [above]) := by
  constructor
  · intro other called
    rcases List.mem_append.mp called with was | now
    · exact marks.called other was
    · rw [List.mem_singleton.mp now]
      exact List.mem_of_getElem? high
  · intro token way low
    obtain ⟨node, found⟩ := charts.planted low
    have was := marks.exact token way low
    rw [isCancelled, found, Option.any_some] at was
    rw [isCancelled_cancel, found, Option.any_some, Bool.or_eq_true, was,
      charts.isUnder_iff high low]
    simp [or_and_right, exists_or]

end Marks

end Forest

section Rel

variable {α β : Type} {r : α → β → Prop} {a : Option α} {b : Option β}

theorem rel_mono {weaker : α → β → Prop} (rel : Option.Rel r a b)
    (implied : ∀ x y, r x y → weaker x y) : Option.Rel weaker a b := by
  cases rel with
  | some holds => exact .some (implied _ _ holds)
  | none => exact .none

theorem rel_cases (rel : Option.Rel r a b) :
    a = none ∧ b = none ∨ ∃ x y, a = some x ∧ b = some y ∧ r x y := by
  cases rel with
  | some holds => exact .inr ⟨_, _, rfl, rfl, holds⟩
  | none => exact .inl ⟨rfl, rfl⟩

end Rel

namespace Scenario.OnScopes

-- Whose handle this is: the number of the scope that was made, and the way to its token. A clone is
-- of the same scope, and a scope on the token of another one has the same way.
structure Kin where
  number : Nat
  way : List Nat

-- What has been done with scopes so far. A handle that is dropped leaves nothing behind and takes
-- nothing along.
structure Lineage where
  made : Nat := 0
  cancels : List (List Nat) := []
  handles : String → Option Kin := fun _ => none
  waits : String → Option (List Nat) := fun _ => none

namespace Lineage

def IsCancelled (l : Lineage) (way : List Nat) : Prop := ∃ top ∈ l.cancels, top <+: way

def hold (l : Lineage) (name : String) (kin : Option Kin) : Lineage :=
  { l with handles := Function.update l.handles name kin }

def enter (l : Lineage) (name : String) (way : List Nat) : Lineage :=
  ({ l with made := l.made + 1 }).hold name (some ⟨l.made + 1, way⟩)

def follow (l : Lineage) : Step → Lineage
  | .new name => l.enter name [l.made + 1]
  | .child name parent =>
    match l.handles parent with
    | some kin => l.enter name (kin.way ++ [l.made + 1])
    | none => l
  | .clone name source =>
    match l.handles source with
    | some kin => l.hold name (some kin)
    | none => l
  | .onToken name source =>
    match l.handles source with
    | some kin => l.enter name kin.way
    | none => l
  | .drop name => l.hold name none
  | .cancel name =>
    match l.handles name with
    | some kin => { l with cancels := l.cancels ++ [kin.way] }
    | none => l
  | .wait name =>
    match l.handles name with
    | some kin => { l with waits := Function.update l.waits name (some kin.way) }
    | none => l
  | .poll _ | .checkWait _ | .compare _ _ => l

end Lineage

variable {s : Stage} {l : Lineage} {ways : List (List Nat)} {name other : String}
  {scope : Scope} {kin : Kin}

structure Names (ways : List (List Nat)) (n : Nat) (scope : Scope) (kin : Kin) : Prop where
  number : scope.id = kin.number
  made : kin.number ≤ n
  way : ways[scope.token]? = some kin.way

structure Traces (ways : List (List Nat)) (s : Stage) (l : Lineage) : Prop where
  made : s.scopes.made = l.made
  charts : s.scopes.forest.Charts ways l.made
  marks : s.scopes.forest.Marks ways l.cancels
  handles : ∀ name, Option.Rel (Names ways l.made) (s.scope? name) (l.handles name)
  waits : ∀ name, Option.Rel (fun token way => ways[token]? = some way)
    (s.waits.lookup name) (l.waits name)

theorem scope?_put (s : Stage) (name : String) (made : Scopes × Scope) (other : String) :
    (s.put name made).scope? other = if other = name then some made.2 else s.scope? other := by
  rw [Stage.scope?, Stage.put, List.lookup_append, lookup_filter_ne]
  split
  next here => simp [here]
  next apart => simp [List.lookup_cons, beq_eq_false_iff_ne.mpr apart, Stage.scope?]

namespace Traces

theorem names (traces : Traces ways s l) (held : s.scope? name = some scope)
    (known : l.handles name = some kin) : Names ways l.made scope kin := by
  have related := traces.handles name
  rw [held, known] at related
  cases related
  assumption

theorem put {more : List (List Nat)} {made : Scopes} {n : Nat} (traces : Traces ways s l)
    (grown : ∀ (token : Nat) way, ways[token]? = some way → more[token]? = some way)
    (least : l.made ≤ n) (counted : made.made = n) (charts : made.forest.Charts more n)
    (marks : made.forest.Marks more l.cancels) (names : Names more n scope kin) :
    Traces more (s.put name (made, scope)) (({ l with made := n }).hold name (some kin)) := by
  have kept (name : String) : Option.Rel (Names more n) (s.scope? name) (l.handles name) :=
    rel_mono (traces.handles name) fun _ _ was =>
      ⟨was.number, was.made.trans least, grown _ _ was.way⟩
  refine ⟨counted, charts, marks, fun other => ?_, fun other => ?_⟩
  · rw [scope?_put, Lineage.hold]
    by_cases here : other = name
    · simpa [here] using Option.Rel.some names
    · simpa [here] using kept other
  · exact rel_mono (traces.waits other) fun _ _ was => grown _ _ was

theorem enter (traces : Traces ways s l) {token : Nat} {way : List Nat}
    (placed : ways[token]? = some way) :
    Traces ways (s.put name (s.scopes.onToken token)) (l.enter name way) :=
  traces.put (fun _ _ => id) (Nat.le_succ _) (congrArg (· + 1) traces.made) traces.charts.later
    traces.marks ⟨congrArg (· + 1) traces.made, Nat.le_refl _, placed⟩

theorem grow (traces : Traces ways s l) {node : Forest.Node} {above : List Nat}
    (placed : node.parent = none ∧ above = [] ∨
      ∃ parent, node.parent = some parent ∧ ways[parent]? = some above)
    (born : node.cancelled ↔ l.IsCancelled above) :
    Traces (ways ++ [above ++ [l.made + 1]])
      (s.put name (({ s.scopes with forest := { nodes := s.scopes.forest.nodes ++ [node] } }).onToken
        s.scopes.forest.nodes.length))
      (l.enter name (above ++ [l.made + 1])) := by
  refine traces.put (fun _ _ => Forest.snoc_keeps) (Nat.le_succ _) (congrArg (· + 1) traces.made)
    (traces.charts.grow placed) (traces.marks.grow traces.charts born)
    ⟨congrArg (· + 1) traces.made, Nat.le_refl _, ?_⟩
  simp [← traces.charts.length]

theorem derive {source : String} {f : Scope → Scopes × Scope} {g : Kin → Lineage}
    (traces : Traces ways s l)
    (made : ∀ scope kin, Names ways l.made scope kin →
      ∃ more, Traces more (s.put name (f scope)) (g kin)) :
    ∃ more, Traces more (s.derive name source f)
      (match l.handles source with
      | some kin => g kin
      | none => l) := by
  rw [Stage.derive]
  rcases rel_cases (traces.handles source) with ⟨unheld, unknown⟩ | ⟨scope, kin, held, known, names⟩
  · rw [unheld, unknown]
    exact ⟨ways, traces⟩
  · rw [held, known]
    exact made scope kin names

theorem drop (traces : Traces ways s l) (name : String) :
    Traces ways { s with named := s.named.filter (·.1 != name) } (l.hold name none) := by
  refine { traces with handles := fun other => ?_ }
  rw [Stage.scope?, lookup_filter_ne, Lineage.hold]
  have kept := traces.handles other
  rw [Stage.scope?] at kept
  by_cases here : other = name
  · simp [here]
  · simpa [here] using kept

theorem cancel (traces : Traces ways s l) (names : Names ways l.made scope kin) :
    Traces ways { s with scopes := s.scopes.cancel scope }
      { l with cancels := l.cancels ++ [kin.way] } :=
  { traces with
    charts := traces.charts.cancel scope.token
    marks := traces.marks.cancel traces.charts names.way }

theorem wait (traces : Traces ways s l) (names : Names ways l.made scope kin) :
    Traces ways
      { s with waits := s.waits.filter (·.1 != name) ++ [(name, scope.token)] }
      { l with waits := Function.update l.waits name (some kin.way) } := by
  refine { traces with waits := fun other => ?_ }
  rw [List.lookup_append, lookup_filter_ne]
  by_cases here : other = name
  · simpa [here] using Option.Rel.some names.way
  · simpa [here, List.lookup_cons, beq_eq_false_iff_ne.mpr here] using traces.waits other

theorem perform (traces : Traces ways s l) (step : Step) :
    ∃ more, Traces more (s.perform step).1 (l.follow step) := by
  cases step with
  | new name =>
    have nowhere : ¬ l.IsCancelled [] := by
      rintro ⟨top, called, upwards⟩
      obtain ⟨token, there⟩ := List.mem_iff_getElem?.mp (traces.marks.called top called)
      exact traces.charts.nonempty there (List.prefix_nil.mp upwards)
    exact ⟨_, traces.grow (.inl ⟨rfl, rfl⟩) (by simpa using nowhere)⟩
  | child name parent =>
    exact traces.derive fun scope kin names =>
      ⟨_, traces.grow (.inr ⟨scope.token, rfl, names.way⟩)
        (traces.marks.exact scope.token kin.way names.way)⟩
  | clone name source =>
    exact traces.derive fun scope kin names =>
      ⟨ways, traces.put (fun _ _ => id) (Nat.le_refl _) traces.made traces.charts traces.marks
        names⟩
  | onToken name source => exact traces.derive fun scope kin names => ⟨ways, traces.enter names.way⟩
  | drop name => exact ⟨ways, traces.drop name⟩
  | cancel name =>
    rw [Stage.perform, Lineage.follow]
    rcases rel_cases (traces.handles name) with ⟨unheld, unknown⟩ | ⟨scope, kin, held, known, names⟩
    · rw [unheld, unknown]
      exact ⟨ways, traces⟩
    · rw [held, known]
      exact ⟨ways, traces.cancel names⟩
  | wait name =>
    rw [Stage.perform, Lineage.follow]
    rcases rel_cases (traces.handles name) with ⟨unheld, unknown⟩ | ⟨scope, kin, held, known, names⟩
    · rw [unheld, unknown]
      exact ⟨ways, traces⟩
    · rw [held, known]
      exact ⟨ways, traces.wait names⟩
  | poll | compare => exact ⟨ways, traces⟩
  | checkWait name =>
    refine ⟨ways, ?_⟩
    rw [Stage.perform]
    split <;> exact traces

end Traces

theorem perform_keeps (s : Stage) (step : Step) {token : Nat}
    (cancelled : s.scopes.forest.isCancelled token) :
    (s.perform step).1.scopes.forest.isCancelled token := by
  have derived {name source : String} {f : Scope → Scopes × Scope}
      (kept : ∀ scope, (f scope).1.forest.isCancelled token) :
      (s.derive name source f).scopes.forest.isCancelled token := by
    rw [Stage.derive]
    split
    next => exact kept _
    next => exact cancelled
  cases step with
  | new name => exact Forest.isCancelled_append _ _ cancelled
  | child name parent => exact derived fun _ => Forest.isCancelled_append _ _ cancelled
  | clone name source => exact derived fun _ => cancelled
  | onToken name source => exact derived fun _ => cancelled
  | cancel name =>
    rw [Stage.perform]
    split
    next => exact Forest.cancel_keeps _ _ cancelled
    next => exact cancelled
  | wait name | checkWait name =>
    rw [Stage.perform]
    split <;> exact cancelled
  | drop | poll | compare => exact cancelled

theorem follow_made (l : Lineage) (step : Step) : (l.follow step).made ≤ l.made + 1 := by
  cases step <;> grind [Lineage.follow, Lineage.enter, Lineage.hold]

def after (steps : List Step) : Stage := steps.foldl (fun s step => (s.perform step).1) {}

def lineage (steps : List Step) : Lineage := steps.foldl Lineage.follow {}

theorem after_append (steps : List Step) (step : Step) :
    after (steps ++ [step]) = ((after steps).perform step).1 := by
  simp [after]

theorem lineage_append (steps : List Step) (step : Step) :
    lineage (steps ++ [step]) = (lineage steps).follow step := by
  simp [lineage]

variable {steps : List Step}

theorem after_traces (steps : List Step) : ∃ ways, Traces ways (after steps) (lineage steps) := by
  induction steps using List.reverseRecOn with
  | nil =>
    refine ⟨[], rfl, ⟨rfl, .nil, ?_, ?_, ?_⟩, ⟨?_, ?_⟩, fun _ => .none, fun _ => .none⟩ <;>
      simp [lineage]
  | append_singleton steps step ih =>
    obtain ⟨ways, traces⟩ := ih
    rw [after_append, lineage_append]
    exact traces.perform step

theorem lineage_made (steps : List Step) : (lineage steps).made ≤ steps.length := by
  induction steps using List.reverseRecOn with
  | nil => exact Nat.le_refl 0
  | append_singleton steps step ih =>
    have more := follow_made (lineage steps) step
    rw [lineage_append, List.length_append, List.length_singleton]
    omega

theorem after_keeps (steps later : List Step) {token : Nat}
    (cancelled : (after steps).scopes.forest.isCancelled token) :
    (after (steps ++ later)).scopes.forest.isCancelled token := by
  induction later using List.reverseRecOn with
  | nil => simpa using cancelled
  | append_singleton later step ih =>
    rw [← List.append_assoc, after_append]
    exact perform_keeps _ step ih

theorem play_getElem? (steps : List Step) (i : Nat) :
    (play steps)[i]? = steps[i]?.map fun step =>
      (after (steps.take (i + 1))).entry ((after (steps.take i)).perform step).2 := by
  have run (s : Stage) (steps : List Step) (i : Nat) :
      (s.run steps)[i]? = steps[i]?.map fun step =>
        let before := (steps.take i).foldl (fun s step => (s.perform step).1) s
        (before.perform step).1.entry (before.perform step).2 := by
    induction steps generalizing s i with
    | nil => rfl
    | cons step rest ih =>
      cases i with
      | zero => rfl
      | succ i => exact ih _ i
  rw [play, run]
  cases here : steps[i]? with
  | none => rfl
  | some step =>
    rw [List.take_add_one, here, Option.toList_some, after_append]
    rfl

theorem after_cancelled (held : (after steps).scope? name = some scope)
    (known : (lineage steps).handles name = some kin) :
    (after steps).scopes.isCancelled scope ↔ (lineage steps).IsCancelled kin.way := by
  obtain ⟨ways, traces⟩ := after_traces steps
  exact traces.marks.exact scope.token kin.way (traces.names held known).way

theorem after_awaited {way : List Nat} (waits : (lineage steps).waits name = some way) :
    ∃ ready, ((after steps).perform (.checkWait name)).2 = .flag ready ∧
      (ready ↔ (lineage steps).IsCancelled way) := by
  obtain ⟨ways, traces⟩ := after_traces steps
  rcases rel_cases (traces.waits name) with ⟨-, nobody⟩ | ⟨token, there, asked, known, placed⟩
  · rw [waits] at nobody
    cases nobody
  · obtain rfl := Option.some.inj (waits.symm.trans known)
    refine ⟨(after steps).scopes.forest.isCancelled token, ?_, traces.marks.exact token way placed⟩
    rw [Stage.perform, asked]

theorem after_drops (steps : List Step) (names : List String) :
    (after (steps ++ names.map .drop)).scopes = (after steps).scopes := by
  induction names using List.reverseRecOn with
  | nil => simp
  | append_singleton names name ih =>
    rw [List.map_append, List.map_singleton, ← List.append_assoc, after_append]
    exact ih

theorem after_reached {top : String} {below : Kin} (known : (lineage steps).handles top = some kin)
    (held : (after steps).scope? name = some scope)
    (here : (lineage steps).handles name = some below) (under : kin.way <+: below.way) :
    (after (steps ++ [.cancel top])).scopes.isCancelled scope := by
  have follows : (lineage (steps ++ [.cancel top])) =
      { lineage steps with cancels := (lineage steps).cancels ++ [kin.way] } := by
    rw [lineage_append, Lineage.follow, known]
  have stays : (after (steps ++ [.cancel top])).scope? name = some scope := by
    rw [after_append, Stage.perform]
    split <;> exact held
  refine (after_cancelled stays (follows ▸ here)).mpr ⟨kin.way, ?_, under⟩
  simp [follows]

theorem after_numbered (held : (after steps).scope? name = some scope)
    (known : (lineage steps).handles name = some kin) :
    scope.id = kin.number ∧ kin.number ≤ steps.length := by
  obtain ⟨ways, traces⟩ := after_traces steps
  have names := traces.names held known
  exact ⟨names.number, names.made.trans (lineage_made steps)⟩

-- What becomes of scopes. A scope is cancelled exactly if a cancel has been called on its token or
-- on one above it, and stays so for good. Whoever waits for that gets leave at the same time,
-- whether the scope is still held or not. To drop handles changes nothing, and a later cancel
-- reaches all that is below, whatever of the scopes between has been dropped. Handles are the same,
-- and go into a hash alike, exactly if they are of one scope, and its number is the rank in which
-- it was made.
structure Follows (steps : List Step) : Prop where
  held : ∀ name, (after steps).scope? name = none ↔ (lineage steps).handles name = none
  cancelled : ∀ name scope kin, (after steps).scope? name = some scope →
    (lineage steps).handles name = some kin →
    ((after steps).scopes.isCancelled scope ↔ (lineage steps).IsCancelled kin.way)
  awaited : ∀ name way, (lineage steps).waits name = some way → ∃ ready,
    ((after steps).perform (.checkWait name)).2 = .flag ready ∧
      (ready ↔ (lineage steps).IsCancelled way)
  lasting : ∀ later scope, (after steps).scopes.isCancelled scope →
    (after (steps ++ later)).scopes.isCancelled scope
  dropped : ∀ names : List String,
    (after (steps ++ names.map .drop)).scopes = (after steps).scopes
  reached : ∀ top kin name scope below, (lineage steps).handles top = some kin →
    (after steps).scope? name = some scope → (lineage steps).handles name = some below →
    kin.way <+: below.way → (after (steps ++ [.cancel top])).scopes.isCancelled scope
  numbered : ∀ name scope kin, (after steps).scope? name = some scope →
    (lineage steps).handles name = some kin → scope.id = kin.number ∧ kin.number ≤ steps.length
  alike : ∀ later name scope kin other scope' kin',
    (after steps).scope? name = some scope → (lineage steps).handles name = some kin →
    (after (steps ++ later)).scope? other = some scope' →
    (lineage (steps ++ later)).handles other = some kin' →
    (scope.same scope' ↔ kin.number = kin'.number) ∧
      ((∀ (σ : Type) (write : σ → Nat → σ) (state : σ),
        scope.hashInto write state = scope'.hashInto write state) ↔ kin.number = kin'.number) ∧
      (scope.older scope' ↔ kin.number < kin'.number)

theorem cancellation_downward (steps : List Step) :
    Follows steps ∧ ∀ i, (play steps)[i]? = steps[i]?.map fun step =>
      (after (steps.take (i + 1))).entry ((after (steps.take i)).perform step).2 := by
  refine ⟨⟨fun name => ?held, fun _ _ _ => after_cancelled, fun _ _ => after_awaited,
    fun later _ => after_keeps steps later, after_drops steps, fun _ _ _ _ _ => after_reached,
    fun _ _ _ => after_numbered, ?alike⟩, play_getElem? steps⟩
  case held =>
    obtain ⟨ways, traces⟩ := after_traces steps
    rcases rel_cases (traces.handles name) with ⟨unheld, unknown⟩ | ⟨scope, kin, held, known, -⟩
    · simp [unheld, unknown]
    · simp [held, known]
  case alike =>
    intro later name scope kin other scope' kin' held known held' known'
    have number := (after_numbered held known).1
    have number' := (after_numbered held' known').1
    refine ⟨by simp [Scope.same, number, number'], ⟨fun hashed => ?_, fun same => ?_⟩,
      by simp [Scope.older, number, number']⟩
    · rw [← number, ← number']
      exact hashed Nat (fun _ word => word) 0
    · intro σ write state
      rw [Scope.hashInto, Scope.hashInto, number, number', same]

-- Of scopes in a row the middle one goes, in all its handles, before the first is cancelled.
theorem severed_downward :
    let steps : List Step := [.new "a", .child "b" "a", .clone "c" "b", .onToken "t" "b",
      .child "d" "t", .wait "d", .drop "b", .drop "c", .drop "t", .clone "e" "d", .drop "d"]
    let later : List Step := [.cancel "a", .child "f" "e"]
    (after steps).scope? "e" = some ⟨4, 2⟩ ∧ (after (steps ++ later)).scope? "f" = some ⟨5, 3⟩ ∧
      ¬ (after steps).scopes.isCancelled ⟨4, 2⟩ ∧
      (after (steps ++ later)).scopes.isCancelled ⟨5, 3⟩ ∧
      ((after (steps ++ later)).perform (.checkWait "d")).2 = .flag true ∧
      Scope.same ⟨4, 2⟩ ⟨5, 3⟩ = false ∧ Scope.older ⟨4, 2⟩ ⟨5, 3⟩ := by
  intro steps later
  have before := (cancellation_downward steps).1
  have afterwards := (cancellation_downward (steps ++ later)).1
  have e : (after steps).scope? "e" = some ⟨4, 2⟩ := by decide
  have f : (after (steps ++ later)).scope? "f" = some ⟨5, 3⟩ := by decide
  have kin : (lineage steps).handles "e" = some ⟨4, [1, 2, 4]⟩ := rfl
  have heir : (lineage (steps ++ later)).handles "f" = some ⟨5, [1, 2, 4, 5]⟩ := rfl
  have called : (lineage (steps ++ later)).cancels = [[1]] := rfl
  have uncalled : (lineage steps).cancels = [] := rfl
  refine ⟨e, f, ?_, ?_, ?_, ?_, ?_⟩
  · rw [before.cancelled "e" _ _ e kin, Lineage.IsCancelled, uncalled]
    decide
  · rw [afterwards.cancelled "f" _ _ f heir, Lineage.IsCancelled, called]
    decide
  · obtain ⟨ready, shown, exact⟩ := afterwards.awaited "d" [1, 2, 4] rfl
    rw [Lineage.IsCancelled, called] at exact
    rw [shown, exact.mpr (by decide)]
  · have same := (before.alike later "e" _ _ "f" _ _ e kin f heir).1
    exact Bool.eq_false_iff.mpr fun equal => absurd (same.mp equal) (by decide)
  · exact (before.alike later "e" _ _ "f" _ _ e kin f heir).2.2.mpr (by decide)

end Scenario.OnScopes

end Egress
