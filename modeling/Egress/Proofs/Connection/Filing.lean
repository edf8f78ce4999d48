import Mathlib.Data.List.Dedup

set_option autoImplicit false

namespace Egress

variable {α κ : Type} {key : α → κ} {l : List α}

theorem eq_of_key (apart : (l.map key).Nodup) {a b : α} (first : a ∈ l) (second : b ∈ l)
    (same : key a = key b) : a = b :=
  List.inj_on_of_nodup_map apart first second same

theorem find_of_key [DecidableEq κ] (apart : (l.map key).Nodup) {a : α} (member : a ∈ l) :
    l.find? (key · = key a) = some a := by
  cases found : l.find? (key · = key a) with
  | none => simpa using List.find?_eq_none.mp found a member
  | some b =>
    have same : key b = key a := by simpa using List.find?_some found
    rw [eq_of_key apart (List.mem_of_find?_eq_some found) member same]

theorem nodup_filter (apart : (l.map key).Nodup) (p : α → Bool) : ((l.filter p).map key).Nodup :=
  (List.filter_sublist.map key).nodup apart

theorem nodup_append (apart : (l.map key).Nodup) {a : α} (new : ∀ b ∈ l, key b ≠ key a) :
    ((l ++ [a]).map key).Nodup := by
  rw [List.map_append, List.nodup_append]
  refine ⟨apart, by simp, ?_⟩
  rintro x member y single rfl
  obtain ⟨b, old, same⟩ := List.mem_map.mp member
  rw [List.map_singleton, List.mem_singleton] at single
  exact new b old (same.trans single)

theorem lookup_filter_ne {β : Type} (id : String) (entries : List (String × β)) (other : String) :
    (entries.filter (·.1 != id)).lookup other =
      if other = id then none else entries.lookup other := by
  induction entries with
  | nil => simp
  | cons entry rest ih =>
    obtain ⟨name, old⟩ := entry
    by_cases kept : name = id
    · subst kept
      by_cases hit : other = name
      · simpa [hit] using ih
      · have miss : (other == name) = false := by simpa using hit
        simpa [List.lookup_cons, hit, miss] using ih
    · simp only [bne_iff_ne, ne_eq, kept, not_false_eq_true, List.filter_cons_of_pos,
        List.lookup_cons, ih]
      by_cases same : other = name
      · simp [same, kept]
      · have miss : (other == name) = false := by simpa using same
        simp [miss]

variable [DecidableEq κ]

-- Of what is looked up under a key only this changes.
def Alters (before : κ → Option α) (k : κ) (g : α → α) (after : κ → Option α) : Prop :=
  ∀ j, after j = if j = k then (before j).map g else before j

section Alters

variable {before after last : κ → Option α} {k : κ} {g h : α → α}

theorem alters_absent (absent : before k = none) (g : α → α) : Alters before k g before := by
  intro j
  by_cases hit : j = k
  · rw [if_pos hit, hit, absent, Option.map_none]
  · rw [if_neg hit]

theorem Alters.trans (first : Alters before k g after) (second : Alters after k h last) :
    Alters before k (h ∘ g) last := by
  intro j
  rw [second j, first j]
  by_cases hit : j = k
  · simp only [if_pos hit, Option.map_map]
  · simp only [if_neg hit]

theorem Alters.congr (alters : Alters before k g after) (same : ∀ a, before k = some a → h a = g a) :
    Alters before k h after := by
  intro j
  rw [alters j]
  by_cases hit : j = k
  · subst hit
    cases found : before j with
    | none => rfl
    | some a => simp [same a found]
  · rw [if_neg hit, if_neg hit]

theorem Alters.stays (alters : Alters before k g after) {j : κ} (there : (before j).isSome) :
    (after j).isSome := by
  rw [alters j]
  split <;> simpa using there

end Alters

theorem nodup_map (apart : (l.map key).Nodup) {k : κ} {f : α → α}
    (keeps : ∀ e, key (f e) = key e) :
    ((l.map fun e => if key e = k then f e else e).map key).Nodup := by
  have keys : (l.map fun e => if key e = k then f e else e).map key = l.map key := by
    rw [List.map_map]
    refine List.map_congr_left fun e _ => ?_
    dsimp only [Function.comp]
    split
    · exact keeps e
    · rfl
  rwa [keys]

variable (key) (ids : α → List Nat)

def Files (l : List α) (k : κ) (i : Nat) : Prop := ∃ e ∈ l, key e = k ∧ i ∈ ids e

variable {key ids} {k p : κ} {i id : Nat} {f : α → α}

omit [DecidableEq κ] in
theorem files_append {e : α} : Files key ids (l ++ [e]) p i ↔
    Files key ids l p i ∨ key e = p ∧ i ∈ ids e := by
  simp [Files, or_and_right, exists_or]

theorem files_map (keeps : ∀ e, key (f e) = key e) :
    Files key ids (l.map fun e => if key e = k then f e else e) p i ↔
      ∃ e ∈ l, key e = p ∧ i ∈ if p = k then ids (f e) else ids e := by
  constructor
  · rintro ⟨e, member, rfl, filed⟩
    obtain ⟨o, was, rfl⟩ := List.mem_map.mp member
    by_cases hit : key o = k
    · rw [if_pos hit] at filed
      exact ⟨o, was, by rw [if_pos hit, keeps], by rwa [if_pos hit, keeps, if_pos hit]⟩
    · rw [if_neg hit] at filed
      exact ⟨o, was, by rw [if_neg hit], by rwa [if_neg hit, if_neg hit]⟩
  · rintro ⟨o, was, rfl, filed⟩
    refine ⟨_, List.mem_map_of_mem was, ?_⟩
    by_cases hit : key o = k
    · rw [if_pos hit] at filed ⊢
      exact ⟨keeps o, filed⟩
    · rw [if_neg hit] at filed ⊢
      exact ⟨rfl, filed⟩

theorem files_more (keeps : ∀ e, key (f e) = key e) (more : ∀ e, ids (f e) = ids e ++ [id])
    (known : ∃ e ∈ l, key e = k) :
    Files key ids (l.map fun e => if key e = k then f e else e) p i ↔
      Files key ids l p i ∨ p = k ∧ i = id := by
  rw [files_map keeps]
  by_cases hit : p = k
  · subst hit
    obtain ⟨o, there, same⟩ := known
    simp only [if_true, more, List.mem_append, List.mem_singleton, true_and]
    constructor
    · rintro ⟨e, was, keyed, filed | new⟩
      · exact .inl ⟨e, was, keyed, filed⟩
      · exact .inr new
    · rintro (⟨e, was, keyed, filed⟩ | new)
      · exact ⟨e, was, keyed, .inl filed⟩
      · exact ⟨o, there, same, .inr new⟩
  · simp [hit, Files]

theorem files_less (keeps : ∀ e, key (f e) = key e)
    (less : ∀ e, ids (f e) = (ids e).filter (· != id)) :
    Files key ids (l.map fun e => if key e = k then f e else e) p i ↔
      Files key ids l p i ∧ ¬(p = k ∧ i = id) := by
  rw [files_map keeps]
  by_cases hit : p = k
  · simp only [hit, if_true, less, List.mem_filter, bne_iff_ne, Files, true_and]
    exact ⟨fun ⟨e, was, keyed, filed, other⟩ => ⟨⟨e, was, keyed, filed⟩, other⟩,
      fun ⟨⟨e, was, keyed, filed⟩, other⟩ => ⟨e, was, keyed, filed, other⟩⟩
  · simp [hit, Files]

theorem length_of_same {α : Type} [DecidableEq α] {l k : List α} (apart : l.Nodup)
    (same : ∀ a, a ∈ l ↔ a ∈ k) : l.length = k.dedup.length :=
  ((List.perm_ext_iff_of_nodup apart (List.nodup_dedup k)).mpr fun a => by
    rw [same, List.mem_dedup]).length_eq

theorem dedup_length_of_same {α : Type} [DecidableEq α] {l k : List α}
    (same : ∀ a, a ∈ l ↔ a ∈ k) : l.dedup.length = k.dedup.length :=
  length_of_same (List.nodup_dedup l) fun a => List.mem_dedup.trans (same a)

end Egress
