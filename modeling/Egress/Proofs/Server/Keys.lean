import Mathlib.Data.List.Induction
import Egress.Scenario.OnStore

set_option autoImplicit false

namespace Egress

namespace Server

namespace Store

def keysOf (s : Store) (id : String) : List Key := s.keys.filter (·.id = id)

def keysBeside (s : Store) (id : String) : List Key := s.keys.filter (·.id ≠ id)

variable {s : Store} {id : String}

theorem withoutKey_keys (s : Store) (id : String) : (s.withoutKey id).keys = s.keysBeside id :=
  List.filter_congr fun key _ => by by_cases named : key.id = id <;> simp [named]

theorem keyById_eq (s : Store) (id : String) : s.keyById id = (s.keysOf id).head? := by
  simp [keyById, findKey, keysOf, List.head?_filter, beq_eq_decide]

theorem keysOf_without (s : Store) (other : String) :
    (s.withoutKey other).keysOf id = if other = id then [] else s.keysOf id := by
  rw [keysOf, withoutKey_keys, keysBeside, List.filter_filter]
  split
  next same => simp [same]
  next apart =>
    refine List.filter_congr fun key _ => ?_
    by_cases named : key.id = id <;> simp [named, Ne.symm apart]

theorem keysOf_putKey (s : Store) (key : Key) :
    (s.putKey key).keysOf id = if key.id = id then [key] else s.keysOf id := by
  have put : (s.putKey key).keysOf id =
      (s.withoutKey key.id).keysOf id ++ [key].filter (·.id = id) := by
    simp [putKey, keysOf]
  rw [put, keysOf_without]
  split
  next same => simp [same]
  next apart => simp [apart]

theorem removeKey_found (s : Store) (id : String) :
    (s.removeKey id).2 = (s.keyById id).isSome := by
  have fewer : (s.keysBeside id).length = s.keys.length ↔ ∀ key ∈ s.keys, key.id ≠ id := by
    simp [keysBeside]
  rw [Bool.eq_iff_iff, removeKey, withoutKey_keys, bne_iff_ne, ne_eq, fewer, keyById, findKey,
    List.find?_isSome]
  simp

end Store

end Server

namespace Scenario.OnStore

open Server

namespace Step

def target? : Step → Option String
  | .putKey key => some key.id
  | .removeKey id => some id
  | _ => none

def left? : Step → Option Key
  | .putKey key => some key
  | _ => none

end Step

variable {first s : Store} {steps : List Step} {step : Step} {id : String}

theorem perform_keysOf (s : Store) (step : Step) (id : String) :
    (perform s step).1.keysOf id =
      if step.target? = some id then step.left?.toList else s.keysOf id := by
  cases step with
  | putKey key => simp [perform, Step.target?, Step.left?, Store.keysOf_putKey]
  | removeKey other => simp [perform, Step.target?, Step.left?, Store.removeKey, Store.keysOf_without]
  | _ => rfl

theorem perform_keysBeside (about : step.target? = some id) :
    (perform s step).1.keysBeside id = s.keysBeside id := by
  cases step with
  | putKey key =>
    obtain rfl : key.id = id := Option.some.inj about
    simp [perform, Store.putKey, Store.withoutKey_keys, Store.keysBeside]
  | removeKey other =>
    obtain rfl : other = id := Option.some.inj about
    simp [perform, Store.removeKey, Store.withoutKey_keys, Store.keysBeside]
  | _ => cases about

theorem perform_keys (other : step.target? = none) : (perform s step).1.keys = s.keys := by
  cases step with
  | putKey | removeKey => cases other
  | _ => rfl

def after (first : Store) (steps : List Step) : Store :=
  steps.foldl (fun s step => (perform s step).1) first

theorem after_append (first : Store) (steps : List Step) (step : Step) :
    after first (steps ++ [step]) = (perform (after first steps) step).1 := by
  simp [after]

def lastChange (id : String) (steps : List Step) : Option Step :=
  steps.reverse.find? fun step => step.target? = some id

-- The key of an id, told from the steps: the one put there last, if it has not been removed since.
-- Where no step was about the id it is the first of those that the store started with.
def latest (keys : List Key) (id : String) (steps : List Step) : Option Key :=
  match lastChange id steps with
  | some step => step.left?
  | none => keys.find? (·.id = id)

theorem lastChange_append (id : String) (steps : List Step) (step : Step) :
    lastChange id (steps ++ [step]) =
      if step.target? = some id then some step else lastChange id steps := by
  by_cases about : step.target? = some id <;> simp [lastChange, about]

theorem after_keysOf (first : Store) (steps : List Step) (id : String) :
    (after first steps).keysOf id =
      match lastChange id steps with
      | some step => step.left?.toList
      | none => first.keysOf id := by
  induction steps using List.reverseRecOn with
  | nil => rfl
  | append_singleton steps step ih =>
    rw [after_append, perform_keysOf, lastChange_append, ih]
    split <;> rfl

theorem after_keyById (first : Store) (steps : List Step) (id : String) :
    (after first steps).keyById id = latest first.keys id steps := by
  rw [Store.keyById_eq, after_keysOf, latest]
  cases lastChange id steps with
  | none => simp [Store.keysOf]
  | some step => exact Option.head?_toList

theorem after_single (changed : ∃ step ∈ steps, step.target? = some id) :
    ((after first steps).keysOf id).length ≤ 1 := by
  have present : (lastChange id steps).isSome := by simpa [lastChange] using changed
  obtain ⟨step, last⟩ := Option.isSome_iff_exists.mp present
  rw [after_keysOf, last]
  cases step.left? <;> simp

def answer (first : Store) (before : List Step) (step : Step) : Reply :=
  match step with
  | .keyById id => .key (latest first.keys id before)
  | .removeKey id => .flag (latest first.keys id before).isSome
  | step => (perform (after first before) step).2

theorem perform_reply (first : Store) (before : List Step) (step : Step) :
    (perform (after first before) step).2 = answer first before step := by
  cases step with
  | keyById id => simp [perform, answer, after_keyById]
  | removeKey id => simp [perform, answer, Store.removeKey_found, after_keyById]
  | _ => rfl

theorem play_getElem? (first : Store) (steps : List Step) (i : Nat) :
    (play first steps)[i]? = steps[i]?.map fun step =>
      (perform (after first (steps.take i)) step).swap := by
  induction steps generalizing first i with
  | nil => rfl
  | cons step rest ih =>
    cases i with
    | zero => rfl
    | succ i => exact ih _ i

-- What the keys come to. Under each id the key is found that was put there last, and there is
-- something to remove exactly then. An id that some step was about has one key at most, and a step
-- about one id leaves the keys of all others as they are, in their order. Whoever names a key logs
-- in with that very one, or not at all.
structure Keeps (first : Store) (steps : List Step) : Prop where
  found : ∀ id, (after first steps).keyById id = latest first.keys id steps
  removed : ∀ id, ((after first steps).removeKey id).2 = (latest first.keys id steps).isSome
  single : ∀ id, (∃ step ∈ steps, step.target? = some id) →
    ((after first steps).keys.filter (·.id = id)).length ≤ 1
  beside : ∀ (step : Step) id, step.target? = some id →
    (after first (steps ++ [step])).keys.filter (·.id ≠ id) =
      (after first steps).keys.filter (·.id ≠ id)
  untouched : ∀ step : Step, step.target? = none →
    (after first (steps ++ [step])).keys = (after first steps).keys
  credentials : ∀ params : Params, params.addr ≠ "" → params.login ≠ "" → params.keyId ≠ "" →
    params.credentials (after first steps).keys =
      (latest first.keys params.keyId steps).map Credentials.key

theorem keys_kept (first : Store) (steps : List Step) :
    Keeps first steps ∧ ∀ i, (play first steps)[i]? = steps[i]?.map fun step =>
      (answer first (steps.take i) step, after first (steps.take (i + 1))) := by
  constructor
  · refine ⟨after_keyById first steps, fun id => ?_, fun id changed => after_single changed,
      fun step id about => ?_, fun step other => ?_, fun params addr login named => ?_⟩
    · rw [Store.removeKey_found, after_keyById]
    · rw [after_append]
      exact perform_keysBeside about
    · rw [after_append]
      exact perform_keys other
    · rw [← after_keyById]
      simp [Params.credentials, Store.keyById, addr, login, named]
  · intro i
    rw [play_getElem?]
    cases here : steps[i]? with
    | none => rfl
    | some step =>
      have grown : steps.take (i + 1) = steps.take i ++ [step] := by
        rw [List.take_add_one, here, Option.toList_some]
      rw [Option.map_some, Option.map_some, grown, after_append, ← perform_reply]
      rfl

def renewed : Store :=
  { keys := [{ id := "home", privateKey := "a" }, { id := "work", privateKey := "b" },
      { id := "home", privateKey := "c" }, { id := "work", privateKey := "d" }] }

theorem renewed_kept :
    let steps : List Step := [.keyById "home", .putKey { id := "home", privateKey := "e" },
      .removeKey "work", .keyById "home", .removeKey "work"]
    (after renewed steps).keys = [{ id := "home", privateKey := "e" }] ∧
      (after renewed steps).keyById "home" = some { id := "home", privateKey := "e" } ∧
      ((after renewed steps).removeKey "work").2 = false ∧
      ((play renewed steps)[2]?.map Prod.fst = some (.flag true)) ∧
      ((play renewed steps)[3]?.map Prod.fst =
        some (.key (some { id := "home", privateKey := "e" }))) := by
  intro steps
  obtain ⟨keeps, played⟩ := keys_kept renewed steps
  refine ⟨by decide, (keeps.found "home").trans (by decide), (keeps.removed "work").trans (by decide),
    ?_, ?_⟩
  · rw [played]
    rfl
  · rw [played]
    rfl

end Scenario.OnStore

end Egress
