import Mathlib.Data.List.Infix
import Egress.Site.Route

set_option autoImplicit false

namespace Egress.Site

@[simp]
theorem bytes_nil : bytes [] = [] := rfl

@[simp]
theorem bytes_cons (c : Char) (cs : List Char) :
    bytes (c :: cs) = String.utf8EncodeChar c ++ bytes cs := rfl

theorem bytes_append (cs ds : List Char) : bytes (cs ++ ds) = bytes cs ++ bytes ds :=
  List.flatMap_append

theorem bytes_inj {cs ds : List Char} (same : bytes cs = bytes ds) : cs = ds := by
  have encoded : cs.utf8Encode = ds.utf8Encode := List.toByteArray_inj.mpr same
  rw [← String.toByteArray_ofList, ← String.toByteArray_ofList, String.toByteArray_inj] at encoded
  exact String.ofList_injective encoded

theorem dot_ne_ofNat {n : Nat} (low : 128 ≤ n) (high : n < 256) : dot ≠ UInt8.ofNat n := by
  intro same
  have value := congrArg UInt8.toNat same
  rw [UInt8.toNat_ofNat_of_lt' high] at value
  simp only [dot, UInt8.reduceToNat] at value
  omega

theorem encode_dot : String.utf8EncodeChar '.' = [dot] := by decide

theorem eq_dot_of_mem {c : Char} (inside : dot ∈ String.utf8EncodeChar c) : c = '.' := by
  unfold String.utf8EncodeChar at inside
  dsimp only at inside
  split at inside
  next single =>
    have small : c.val.toNat < UInt8.size := Nat.lt_of_le_of_lt single (by decide)
    have value := congrArg UInt8.toNat (List.mem_singleton.mp inside)
    rw [UInt8.toNat_ofNat_of_lt' small] at value
    exact Char.ext (UInt32.toNat_inj.mp value.symm)
  next =>
    exfalso
    split at inside
    next =>
      simp only [List.mem_cons, List.not_mem_nil, or_false] at inside
      rcases inside with byte | byte
      all_goals exact absurd byte (dot_ne_ofNat (by omega) (by omega))
    next =>
      split at inside
      all_goals simp only [List.mem_cons, List.not_mem_nil, or_false] at inside
      · rcases inside with byte | byte | byte
        all_goals exact absurd byte (dot_ne_ofNat (by omega) (by omega))
      · rcases inside with byte | byte | byte | byte
        all_goals exact absurd byte (dot_ne_ofNat (by omega) (by omega))

-- The byte of a dot stands for a dot, wherever it is in a name.
theorem eq_append_of_bytes {host domain : List Char} {front : List UInt8}
    (split : bytes host = front ++ dot :: bytes domain) :
    ∃ before, host = before ++ '.' :: domain := by
  induction host generalizing front with
  | nil => simp at split
  | cons c rest ih =>
    rw [bytes_cons, List.append_eq_append_iff] at split
    obtain ⟨left, begins, goesOn⟩ | ⟨left, begins, goesOn⟩ := split
    next =>
      -- The dot comes after this character.
      obtain ⟨before, rfl⟩ := ih goesOn
      exact ⟨c :: before, rfl⟩
    next =>
      cases left with
      | nil =>
        have here : bytes rest = [] ++ dot :: bytes domain := goesOn.symm
        obtain ⟨before, rfl⟩ := ih here
        exact ⟨c :: before, rfl⟩
      | cons byte more =>
        obtain ⟨rfl, tail⟩ := List.cons.inj goesOn
        obtain rfl := eq_dot_of_mem (c := c) (by simp [begins])
        have single := congrArg List.length begins
        simp only [encode_dot, List.length_append, List.length_cons, List.length_nil] at single
        obtain rfl : more = [] := List.length_eq_zero_iff.mp (by omega)
        exact ⟨[], by rw [bytes_inj tail, List.nil_append]⟩

theorem isBelow_iff {host domain : List Char} :
    isBelow host domain ↔ '.' :: domain <:+ host := by
  simp only [isBelow, Bool.and_eq_true, decide_eq_true_eq]
  unfold byteLength
  constructor
  · rintro ⟨⟨longer, front, ends⟩, dotted⟩
    have count := congrArg List.length ends
    rw [List.length_append] at count
    -- The last byte of what stands in front of the domain.
    have last : front[front.length - 1]? = some dot := by
      rwa [← ends, List.length_append, Nat.add_sub_cancel,
        List.getElem?_append_left (by omega)] at dotted
    rw [← List.getLast?_eq_getElem?, List.getLast?_eq_some_iff] at last
    obtain ⟨first, rfl⟩ := last
    rw [List.append_assoc, List.singleton_append] at ends
    obtain ⟨before, rfl⟩ := eq_append_of_bytes ends.symm
    exact ⟨before, rfl⟩
  · rintro ⟨before, rfl⟩
    have ends : bytes (before ++ '.' :: domain) = (bytes before ++ [dot]) ++ bytes domain := by
      simp [bytes_append, encode_dot]
    have count := congrArg List.length ends
    simp only [List.length_append, List.length_singleton] at count
    refine ⟨⟨by omega, ends ▸ List.suffix_append _ _⟩, ?_⟩
    rw [ends, show (bytes before ++ [dot] ++ bytes domain).length - (bytes domain).length - 1 =
      (bytes before).length by simp; omega, List.append_assoc, List.getElem?_append_right (by omega)]
    simp

def labels (host : List Char) : List (List Char) := host.splitOn '.'

def above (host : List Char) : List (List Char) :=
  (labels host).tails.tail.dropLast.map ['.'].intercalate

theorem above_nil : above [] = [] := rfl

theorem above_cons (c : Char) (rest : List Char) :
    above (c :: rest) = if c = '.' then rest :: above rest else above rest := by
  have joined : ['.'].intercalate (labels rest) = rest := List.intercalate_splitOn '.'
  have some : labels rest ≠ [] := List.splitOn_ne_nil '.' rest
  have split : labels (c :: rest) =
      if c = '.' then [] :: labels rest else (labels rest).modifyHead (c :: ·) := by
    simpa [labels] using List.splitOn_cons_eq_if_modifyHead c rest
  obtain ⟨first, others, listed⟩ := List.exists_cons_of_ne_nil some
  unfold above
  rw [split]
  rw [listed] at joined ⊢
  have left : others.tails ≠ [] := by cases others <;> simp [List.tails]
  by_cases dotted : c = '.'
  · simp [dotted, List.tails, List.dropLast_cons_of_ne_nil left, joined]
  · simp [dotted, List.tails]

theorem mem_above {host domain : List Char} : domain ∈ above host ↔ '.' :: domain <:+ host := by
  induction host with
  | nil => simp [above_nil]
  | cons c rest ih =>
    rw [above_cons, List.suffix_cons_iff]
    by_cases dotted : c = '.'
    next => simp [dotted, ih]
    next => simp [dotted, ih, Ne.symm dotted]

theorem byteLength_lt {host domain : List Char} (ends : '.' :: domain <:+ host) :
    byteLength domain < byteLength host := by
  obtain ⟨before, rfl⟩ := ends
  simp only [byteLength, bytes_append, bytes_cons, encode_dot, List.length_append,
    List.length_singleton]
  omega

theorem above_shorter (host : List Char) :
    (above host).Pairwise fun first later => byteLength later < byteLength first := by
  induction host with
  | nil => exact .nil
  | cons c rest ih =>
    rw [above_cons]
    split
    · exact .cons (fun domain listed => byteLength_lt (mem_above.mp listed)) ih
    · exact ih

def namedBy (rules : List Rule) (name : List Char) (fits : Rule → Bool) : Option Rule :=
  if name.isEmpty then none else rules.find? fun r => fits r && normalize r.host = name

-- The rule that decides: the first one for the host, else the first one for everything below the
-- lowest domain above the host that has such a rule.
def decider? (rules : List Rule) (host : List Char) : Option Rule :=
  (namedBy rules host fun _ => true).or
    ((above host).findSome? fun domain => namedBy rules domain Rule.recursive)

def walk (rules : List Rule) (host : String) : Disposition :=
  match decider? rules (normalize host) with
  | some r => if r.block then .block else .forward
  | none => .bypass

variable {host : List Char} {rule : Rule} {rest rules : List Rule}

theorem namedBy_cons (name : List Char) (fits : Rule → Bool) :
    namedBy (rule :: rest) name fits =
      if name ≠ [] ∧ fits rule ∧ normalize rule.host = name then some rule
      else namedBy rest name fits := by
  unfold namedBy
  cases name with
  | nil => simp
  | cons c cs =>
    by_cases named : fits rule ∧ normalize rule.host = c :: cs
    next => simp [named]
    next =>
      have passed : (fits rule && normalize rule.host = c :: cs) = false := by simpa using named
      simp [named, passed]

def best (rules : List Rule) (domains : List (List Char)) : Option Match :=
  domains.findSome? fun domain =>
    (namedBy rules domain Rule.recursive).map fun rule => { rule, length := byteLength domain }

def longer : Option Match → Option Match → Option Match
  | none, later => later
  | some m, none => some m
  | some m, some later => if m.length < later.length then some later else some m

theorem longer_assoc (a b c : Option Match) : longer (longer a b) c = longer a (longer b c) := by
  cases a <;> cases b <;> cases c <;> grind [longer]

theorem longer_of_le {m : Match} {later : Option Match}
    (short : ∀ l ∈ later, l.length ≤ m.length) : longer (some m) later = some m := by
  cases later with
  | none => rfl
  | some l => exact if_neg (Nat.not_lt.mpr (short l rfl))

theorem best_le {m : Match} {domains : List (List Char)} {bound : Nat}
    (found : best rules domains = some m) (short : ∀ domain ∈ domains, byteLength domain ≤ bound) :
    m.length ≤ bound := by
  obtain ⟨domain, listed, named⟩ := List.exists_of_findSome?_eq_some found
  obtain ⟨r, -, rfl⟩ := Option.map_eq_some_iff.mp named
  exact short domain listed

theorem best_cons {domains : List (List Char)}
    (shorter : domains.Pairwise fun first later => byteLength later < byteLength first) :
    best (rule :: rest) domains =
      if normalize rule.host ≠ [] ∧ rule.recursive ∧ normalize rule.host ∈ domains then
        longer (some { rule, length := byteLength (normalize rule.host) }) (best rest domains)
      else best rest domains := by
  induction domains with
  | nil => simp [best]
  | cons domain others ih =>
    rw [List.pairwise_cons] at shorter
    obtain ⟨longest, shorter⟩ := shorter
    by_cases named : domain ≠ [] ∧ rule.recursive ∧ normalize rule.host = domain
    next =>
      have first : best (rule :: rest) (domain :: others) =
          some { rule, length := byteLength domain } := by
        rw [best, List.findSome?_cons, namedBy_cons, if_pos named]
        rfl
      obtain ⟨some, recursive, rfl⟩ := named
      rw [first, if_pos ⟨some, recursive, List.mem_cons_self⟩, longer_of_le]
      intro l found
      refine best_le found fun other listed => ?_
      rcases List.mem_cons.mp listed with rfl | listed
      · exact Nat.le_refl _
      · exact Nat.le_of_lt (longest other listed)
    next =>
      have skipped : namedBy (rule :: rest) domain Rule.recursive =
          namedBy rest domain Rule.recursive := by rw [namedBy_cons, if_neg named]
      have unfolds (rules : List Rule) : best rules (domain :: others) =
          ((namedBy rules domain Rule.recursive).map fun rule =>
            { rule, length := byteLength domain : Match }).or (best rules others) := by
        rw [best, List.findSome?_cons]
        cases namedBy rules domain Rule.recursive <;> rfl
      rw [unfolds, unfolds, skipped, ih shorter]
      by_cases listed : normalize rule.host ≠ [] ∧ rule.recursive ∧ normalize rule.host ∈ others
      next =>
        have short := longest _ listed.2.2
        rw [if_pos listed, if_pos ⟨listed.1, listed.2.1, List.mem_cons_of_mem _ listed.2.2⟩]
        cases namedBy rest domain Rule.recursive with
        | none => rfl
        | some r => simp [longer, short]
      next =>
        rw [if_neg listed, if_neg]
        rintro ⟨some, recursive, within⟩
        rcases List.mem_cons.mp within with same | within
        · exact named ⟨same ▸ some, recursive, same⟩
        · exact listed ⟨some, recursive, within⟩

theorem longer_some (found : Option Match) (m : Match) :
    longer found (some m) = if better found m.length then some m else found := by
  cases found <;> simp [longer, better]

theorem findRule_cons (found : Option Match) : findRule host found (rule :: rest) =
    if normalize rule.host ≠ [] ∧ normalize rule.host = host then
      some { rule, length := byteLength host }
    else findRule host
      (if normalize rule.host ≠ [] ∧ rule.recursive ∧ normalize rule.host ∈ above host then
        longer found (some { rule, length := byteLength (normalize rule.host) })
      else found) rest := by
  rw [findRule]
  generalize normalize rule.host = domain
  simp only [List.isEmpty_iff, mem_above, ← isBelow_iff, longer_some, Bool.and_eq_true]
  by_cases empty : domain = []
  next => simp [empty]
  next =>
    by_cases hit : domain = host
    next => simp [hit, hit ▸ empty]
    next =>
      by_cases below : rule.recursive ∧ isBelow host domain
      next => by_cases more : better found (byteLength domain) <;> simp [empty, hit, below, more]
      next => simp [empty, hit, below]

theorem findRule_named {r : Rule} (named : namedBy rules host (fun _ => true) = some r)
    (found : Option Match) : (findRule host found rules).map Match.rule = some r := by
  induction rules generalizing found with
  | nil => simp [namedBy] at named
  | cons rule rest ih =>
    rw [namedBy_cons] at named
    rw [findRule_cons]
    by_cases hit : normalize rule.host ≠ [] ∧ normalize rule.host = host
    next =>
      rw [if_pos ⟨hit.2 ▸ hit.1, rfl, hit.2⟩] at named
      rw [if_pos hit, ← named]
      rfl
    next =>
      have miss : ¬(host ≠ [] ∧ true ∧ normalize rule.host = host) :=
        fun ⟨filled, _, same⟩ => hit ⟨same.symm ▸ filled, same⟩
      rw [if_neg miss] at named
      rw [if_neg hit]
      exact ih named _

theorem findRule_unnamed (unnamed : namedBy rules host (fun _ => true) = none)
    (found : Option Match) : findRule host found rules = longer found (best rules (above host)) := by
  induction rules generalizing found with
  | nil =>
    have nothing : best [] (above host) = none := by simp [best, namedBy]
    rw [nothing]
    cases found <;> rfl
  | cons rule rest ih =>
    rw [namedBy_cons] at unnamed
    split at unnamed
    · cases unnamed
    next missed =>
      have miss : ¬(normalize rule.host ≠ [] ∧ normalize rule.host = host) :=
        fun ⟨filled, same⟩ => missed ⟨same ▸ filled, rfl, same⟩
      rw [findRule_cons, if_neg miss, ih unnamed, best_cons (above_shorter host)]
      split
      · rw [longer_assoc]
      · rfl

theorem findRule_eq (rules : List Rule) (host : List Char) :
    (findRule host none rules).map Match.rule = decider? rules host := by
  unfold decider?
  cases named : namedBy rules host fun _ => true with
  | some r => exact findRule_named named none
  | none =>
    rw [findRule_unnamed named, Option.none_or]
    change (best rules (above host)).map Match.rule = _
    unfold best
    induction above host with
    | nil => rfl
    | cons domain others ih =>
      rw [List.findSome?_cons, List.findSome?_cons]
      cases namedBy rules domain Rule.recursive with
      | some r => rfl
      | none => exact ih

def Agree (rules : List Rule) : Prop :=
  ∀ r ∈ rules, ∀ s ∈ rules, normalize r.host = normalize s.host → r.block = s.block

theorem namedBy_perm {others : List Rule} (same : rules.Perm others) (agree : Agree rules)
    (name : List Char) (fits : Rule → Bool) :
    (namedBy others name fits).map Rule.block = (namedBy rules name fits).map Rule.block := by
  unfold namedBy
  split
  · rfl
  next =>
    cases found : rules.find? fun r => fits r && normalize r.host = name with
    | none =>
      have none : others.find? (fun r => fits r && normalize r.host = name) = none :=
        List.find?_eq_none.mpr fun r member =>
          List.find?_eq_none.mp found r (same.mem_iff.mpr member)
      rw [none]
    | some r =>
      have member := List.mem_of_find?_eq_some found
      have named := List.find?_some found
      cases other : others.find? fun r => fits r && normalize r.host = name with
      | none => exact absurd named (List.find?_eq_none.mp other r (same.mem_iff.mp member))
      | some s =>
        have there := same.mem_iff.mpr (List.mem_of_find?_eq_some other)
        have also := List.find?_some other
        simp only [Bool.and_eq_true, decide_eq_true_eq] at named also
        exact congrArg some (agree s there r member (also.2.trans named.2.symm))

theorem walk_eq (rules : List Rule) (host : String) : walk rules host =
    match (decider? rules (normalize host)).map Rule.block with
    | some block => if block then .block else .forward
    | none => .bypass := by
  unfold walk
  cases decider? rules (normalize host) <;> rfl

theorem decider?_perm {others : List Rule} (same : rules.Perm others) (agree : Agree rules)
    (host : List Char) :
    (decider? others host).map Rule.block = (decider? rules host).map Rule.block := by
  have alike := namedBy_perm same agree
  have above : ((above host).findSome? fun domain => namedBy others domain Rule.recursive).map
      Rule.block =
      ((above host).findSome? fun domain => namedBy rules domain Rule.recursive).map Rule.block := by
    rw [List.map_findSome?, List.map_findSome?]
    congr 1
    exact funext fun domain => alike domain Rule.recursive
  unfold decider?
  rw [Option.map_or, Option.map_or, alike, above]

-- One pass over the rules decides as the walk over the labels does. In which order the rules stand
-- does not matter where those for the same name do the same.
theorem route_walks (rules : List Rule) (host : String) :
    route rules host = walk rules host ∧
      ∀ others, rules.Perm others → Agree rules → route others host = route rules host := by
  have walks (rules : List Rule) : route rules host = walk rules host := by
    unfold route walk
    rw [← findRule_eq]
    cases findRule (normalize host) none rules <;> rfl
  refine ⟨walks rules, fun others same agree => ?_⟩
  rw [walks, walks, walk_eq, walk_eq, decider?_perm same agree]

def layered : List Rule :=
  [{ host := "Bücher.test.", recursive := true }, { host := "test", recursive := true, block := true },
   { host := "a.bücher.test", recursive := true, block := true }, { host := "BüCHER.test" }]

theorem layered_walks : layered.Perm layered.reverse ∧ Agree layered ∧
    route layered "x.a.bücher.TEST." = .block ∧ route layered "b..bücher.test" = .forward ∧
    route layered.reverse "x.a.bücher.TEST." = .block ∧
    route layered.reverse "b..bücher.test" = .forward := by
  have perm : layered.Perm layered.reverse := (List.reverse_perm layered).symm
  have agree : Agree layered := by unfold Agree; decide +kernel
  have deep : walk layered "x.a.bücher.TEST." = .block := by decide +kernel
  have wide : walk layered "b..bücher.test" = .forward := by decide +kernel
  obtain ⟨walks, permuted⟩ := route_walks layered "x.a.bücher.TEST."
  obtain ⟨walks', permuted'⟩ := route_walks layered "b..bücher.test"
  refine ⟨perm, agree, walks.trans deep, walks'.trans wide, ?_, ?_⟩
  · exact (permuted _ perm agree).trans (walks.trans deep)
  · exact (permuted' _ perm agree).trans (walks'.trans wide)

end Egress.Site
