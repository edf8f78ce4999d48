import Mathlib.Tactic.SplitIfs
import Egress.Server.Params
import Egress.Site.Rule

set_option autoImplicit false

namespace Egress.Json

def spelled (c : Char) (rest : Spelling × List Char) : Spelling × List Char :=
  (some c :: rest.1, rest.2)

def Escaped (cs : List Char) : Prop :=
  ∃ a b c d rest, cs = '\\' :: 'u' :: a :: b :: c :: d :: rest

theorem hexUnit_control : ∀ n < 0x20,
    hexUnit '0' '0' (hexDigit (n / 16)) (hexDigit (n % 16)) = some n := by
  decide

section Unit

variable {a b c d : Char} {rest : List Char}

theorem readString_last (last : ¬Escaped rest) :
    readString ('\\' :: 'u' :: a :: b :: c :: d :: rest) =
      match hexUnit a b c d with
      | some unit => (readString rest).map fun (s, left) =>
          ((if isHighSurrogate unit || isLowSurrogate unit then none
            else some (Char.ofNat unit)) :: s, left)
      | none => none :=
  readString.eq_4 a b c d rest fun e f g h left same => last ⟨e, f, g, h, left, same⟩

theorem readString_noUnit (bad : hexUnit a b c d = none) :
    readString ('\\' :: 'u' :: a :: b :: c :: d :: rest) = none := by
  by_cases escaped : Escaped rest
  next =>
    obtain ⟨e, f, g, h, left, rfl⟩ := escaped
    rw [readString, bad]
  next => rw [readString_last escaped, bad]

-- A unit that is no half of a character stands for one, whatever comes after it.
theorem readString_unit {n : Nat} (unit : hexUnit a b c d = some n)
    (high : isHighSurrogate n = false) (low : isLowSurrogate n = false) (rest : List Char) :
    readString ('\\' :: 'u' :: a :: b :: c :: d :: rest) =
      (readString rest).map (spelled (Char.ofNat n)) := by
  by_cases escaped : Escaped rest
  next =>
    obtain ⟨e, f, g, h, left, rfl⟩ := escaped
    cases next : hexUnit e f g h with
    | none => rw [readString, unit, next, readString_noUnit next, Option.map_none]
    | some other =>
      rw [readString, unit, next]
      simp [high, low]
      rfl
  next =>
    rw [readString_last escaped, unit]
    simp [high, low]
    rfl

end Unit

theorem readString_plain {c : Char} (quote : c ≠ '"') (escape : c ≠ '\\') (shown : ¬c.toNat < 0x20)
    (rest : List Char) : readString (c :: rest) = (readString rest).map (spelled c) := by
  rw [readString]
  · simp [escape, shown]
    rfl
  all_goals simp_all

theorem readString_named {e c : Char} (named : simpleEscape e = some c) (rest : List Char) :
    readString ('\\' :: e :: rest) = (readString rest).map (spelled c) := by
  have other : e ≠ 'u' := by
    rintro rfl
    cases named
  rw [readString, named]
  · rfl
  all_goals simp [other]

theorem readString_control {c : Char} (control : c.toNat < 0x20) (rest : List Char) :
    readString ('\\' :: 'u' :: '0' :: '0' :: hexDigit (c.toNat / 16) :: hexDigit (c.toNat % 16) ::
      rest) = (readString rest).map (spelled c) := by
  have high : isHighSurrogate c.toNat = false := by unfold isHighSurrogate; grind
  have low : isLowSurrogate c.toNat = false := by unfold isLowSurrogate; grind
  have read := readString_unit (hexUnit_control c.toNat control) high low rest
  rwa [Char.ofNat_toNat] at read

theorem readString_escapeChar (c : Char) (rest : List Char) :
    readString (escapeChar c ++ rest) = (readString rest).map (spelled c) := by
  unfold escapeChar
  split_ifs with quote escape backspace feed line carriage tab control
  any_goals subst c; exact readString_named rfl rest
  · exact readString_control control rest
  · exact readString_plain quote escape control rest

theorem readString_writeText (cs rest : List Char) :
    readString (cs.flatMap escapeChar ++ '"' :: rest) = some (cs.map some, rest) := by
  induction cs with
  | nil => rw [List.flatMap_nil, List.nil_append, readString]; rfl
  | cons c cs ih =>
    rw [List.flatMap_cons, List.append_assoc, readString_escapeChar, ih]
    rfl

theorem text_map_some (cs : List Char) :
    Spelling.text (cs.map some) = some (String.ofList cs) := by
  have spelt : (cs.map some).mapM id = some cs := by
    induction cs with
    | nil => rfl
    | cons c cs ih => simp [ih]
  rw [Spelling.text, spelt, Option.map_some]

-- These characters come to these tokens, with all the room they need or more.
def Scans (cs : List Char) (tokens : List Token) : Prop :=
  ∀ room, cs.length ≤ room → scanFrom room cs = tokens

namespace Scans

variable {c : Char} {rest left : List Char} {t : Token} {tokens : List Token}

theorem nil : Scans [] [] := by
  intro room _
  cases room <;> rfl

theorem token (read : readToken c rest = some (t, left)) (shown : isBlank c = false)
    (shorter : left.length ≤ rest.length) (later : Scans left tokens) :
    Scans (c :: rest) (t :: tokens) := by
  intro room enough
  cases room with
  | zero => cases enough
  | succ room =>
    have within : left.length ≤ room := by
      rw [List.length_cons] at enough
      omega
    simp [scanFrom, shown, read, later room within]

theorem mark (mark : punctuation c = some t) (later : Scans rest tokens) :
    Scans (c :: rest) (t :: tokens) := by
  have shown : isBlank c = false := by
    unfold punctuation at mark
    split at mark <;> first | rfl | cases mark
  exact token (by simp [readToken, mark]) shown (Nat.le_refl _) later

theorem text (s : String) (later : Scans rest tokens) :
    Scans (writeText s ++ rest) (.text (some s) :: tokens) := by
  have written : writeText s ++ rest = '"' :: (s.toList.flatMap escapeChar ++ '"' :: rest) := by
    simp [writeText]
  have read : readToken '"' (s.toList.flatMap escapeChar ++ '"' :: rest) =
      some (.text (some s), rest) := by
    simp [readToken, punctuation, readString_writeText, text_map_some]
  rw [written]
  refine token read rfl ?_ later
  simp
  omega

theorem flag (b : Bool) (later : Scans rest tokens) :
    Scans ((Scalar.flag b).write ++ rest) (.flag b :: tokens) := by
  cases b with
  | true => exact token (c := 't') rfl rfl (by simp; omega) later
  | false => exact token (c := 'f') rfl rfl (by simp; omega) later

end Scans

def Scalar.value : Scalar → Value
  | .text s => .text s
  | .flag b => .flag b

def listed (members : List (String × Scalar)) : List (String × Value) :=
  members.map fun m => (m.1, m.2.value)

namespace Scans

variable {rest : List Char} {tokens : List Token}

theorem scalar (v : Scalar) (later : Scans rest tokens) :
    Scans (v.write ++ rest) (v.value.tokens ++ tokens) := by
  cases v with
  | text s => exact later.text s
  | flag b => exact later.flag b

theorem member (m : String × Scalar) (later : Scans rest tokens) :
    Scans (writeMember m ++ rest) (.text (some m.1) :: .colon :: (m.2.value.tokens ++ tokens)) := by
  have written : writeMember m ++ rest = writeText m.1 ++ ':' :: (m.2.write ++ rest) := by
    simp [writeMember]
  rw [written]
  exact ((later.scalar m.2).mark rfl).text m.1

theorem members (members : List (String × Scalar)) (later : Scans rest tokens) :
    Scans ([','].intercalate (members.map writeMember) ++ rest)
      (Value.memberTokens (listed members) ++ tokens) := by
  induction members with
  | nil => simpa [listed, Value.memberTokens] using later
  | cons m more ih =>
    cases more with
    | nil => simpa [listed, Value.memberTokens] using later.member m
    | cons n more =>
      have next := (ih.mark (c := ',') rfl).member m
      simpa [listed, Value.memberTokens] using next

end Scans

theorem scan_writeRecord (members : List (String × Scalar)) :
    scan (writeRecord members) = (Value.record (listed members)).tokens := by
  have closed : Scans ['\x7d'] [.closing .record] := .mark rfl .nil
  have whole := (closed.members members).mark (c := '\x7b') rfl
  unfold scan writeRecord
  rw [String.toList_ofList, String.length_ofList, List.cons_append]
  exact whole _ (Nat.le_refl _)

def Scalar.kind : Scalar → Kind
  | .text _ => .text
  | .flag _ => .flag

def Among (fields : List Field) (m : String × Scalar) : Prop :=
  ∃ f, fields.find? (·.name == m.1) = some f ∧ f.kind = m.2.kind

-- Members that a record with these fields may have: each is one of the fields, none comes twice,
-- and none is left out that has to be there.
structure Fits (fields : List Field) (members : List (String × Scalar)) : Prop where
  known : ∀ m ∈ members, Among fields m
  once : (members.map Prod.fst).Nodup
  complete : ∀ f ∈ fields, f.optional ∨ f.name ∈ members.map Prod.fst

section Reading

variable {fields : List Field} {found members : List (String × Scalar)} {place : Place}

theorem foldlM_step {r next : Reading} {t : Token} (step : r.step fields t = .ok next)
    (tokens : List Token) :
    (t :: tokens).foldlM (Reading.step fields) r = tokens.foldlM (Reading.step fields) next := by
  rw [List.foldlM_cons, step]
  rfl

def Place.isKey : Place → Prop
  | .firstKey | .key => True
  | _ => False

theorem foldlM_member {m : String × Scalar} (starts : place.isKey)
    (known : Among fields m) (fresh : m.1 ∉ found.map Prod.fst) (tokens : List Token) :
    (.text (some m.1) :: .colon :: (m.2.value.tokens ++ tokens)).foldlM (Reading.step fields)
      { found, place } =
    tokens.foldlM (Reading.step fields) { found := found ++ [m], place := .member } := by
  obtain ⟨name, v⟩ := m
  obtain ⟨f, there, kind⟩ := known
  have unread : Reading.has { found, place } name = false := by
    rw [Reading.has, List.any_eq_false]
    intro x member same
    exact fresh (List.mem_map.mpr ⟨x, member, eq_of_beq same⟩)
  have named : Reading.step fields { found, place } (.text (some name)) =
      .ok { found, place := .colon name } := by
    cases place <;> first | exact starts.elim | simp [Reading.step, Reading.key, unread]
  have colon : Reading.step fields { found, place := .colon name } .colon =
      .ok { found, place := .value name } := rfl
  have value (t : Token) (fits : v.kind.read t = .ok v) :
      Reading.step fields { found, place := .value name } t =
        .ok { found := found ++ [(name, v)], place := .member } := by
    change Reading.value fields _ name t = _
    rw [← kind] at fits
    unfold Reading.value
    rw [there]
    dsimp only
    rw [fits]
    rfl
  rw [foldlM_step named, foldlM_step colon]
  cases v with
  | text s => exact foldlM_step (value (.text (some s)) rfl) tokens
  | flag b => exact foldlM_step (value (.flag b) rfl) tokens

theorem foldlM_members (filled : members ≠ []) (starts : place.isKey)
    (known : ∀ m ∈ members, Among fields m) (once : (members.map Prod.fst).Nodup)
    (fresh : ∀ name ∈ members.map Prod.fst, name ∉ found.map Prod.fst) (tokens : List Token) :
    (Value.memberTokens (listed members) ++ tokens).foldlM (Reading.step fields) { found, place } =
      tokens.foldlM (Reading.step fields) { found := found ++ members, place := .member } := by
  induction members generalizing found place with
  | nil => exact absurd rfl filled
  | cons m more ih =>
    rw [List.forall_mem_cons] at known
    rw [List.map_cons, List.nodup_cons] at once
    rw [List.map_cons, List.forall_mem_cons] at fresh
    have first := foldlM_member starts known.1 fresh.1
    cases more with
    | nil => simpa [listed, Value.memberTokens] using first tokens
    | cons n more =>
      have later : ∀ name ∈ (n :: more).map Prod.fst, name ∉ (found ++ [m]).map Prod.fst := by
        intro name member
        have other : name ≠ m.1 := fun same => once.1 (same ▸ member)
        simpa [other] using fresh.2 name member
      have key : Place.isKey .key := trivial
      have comma : Reading.step fields { found := found ++ [m], place := .member } .comma =
          .ok { found := found ++ [m], place := .key } := rfl
      have goesOn := ih (by simp) key known.2 once.2 later
      rw [List.append_assoc, List.singleton_append] at goesOn
      rw [← goesOn, ← foldlM_step comma, ← first]
      simp [listed, Value.memberTokens]

theorem close_complete (complete : ∀ f ∈ fields, f.optional ∨ f.name ∈ members.map Prod.fst) :
    Reading.close fields { found := members, place } = .ok { found := members, place := .done } := by
  have all : (fields.all fun f =>
      f.optional || Reading.has { found := members, place } f.name) = true := by
    rw [List.all_eq_true]
    intro f field
    rcases complete f field with optional | there
    · simp [optional]
    · obtain ⟨m, member, named⟩ := List.mem_map.mp there
      have found : Reading.has { found := members, place } f.name :=
        List.any_eq_true.mpr ⟨m, member, beq_iff_eq.mpr named⟩
      simp [found]
  rw [Reading.close, if_pos all]

theorem readRecord_writeRecord (fits : Fits fields members) :
    readRecord fields (writeRecord members) = .ok members := by
  have closed : (Value.record (listed members)).tokens.foldlM (Reading.step fields) {} =
      .ok { found := members, place := .done } := by
    have begins : Reading.step fields {} (.opening .record) =
        .ok { found := [], place := .firstKey } := rfl
    rw [Value.tokens, foldlM_step begins]
    by_cases empty : members = []
    next =>
      subst empty
      have closes : Reading.step fields { found := [], place := .firstKey } (.closing .record) =
          .ok { found := [], place := .done } := close_complete fits.complete
      exact foldlM_step closes []
    next =>
      have key : Place.isKey .firstKey := trivial
      have closes : Reading.step fields { found := members, place := .member } (.closing .record) =
          .ok { found := members, place := .done } := close_complete fits.complete
      rw [foldlM_members empty key fits.known fits.once (by simp)]
      exact foldlM_step closes []
  rw [readRecord, scan_writeRecord, readTokens, closed]
  rfl

end Reading

-- A type that is kept as text: each value is read as it was written. What any other text is read as
-- stays the same when it is written and read again, and so does what is written for it.
structure Kept {α : Type} (read : String → Except Fault α) (write : α → String) : Prop where
  back : ∀ a, read (write a) = .ok a
  again : ∀ text a, read text = .ok a →
    read (write a) = .ok a ∧ (read (write a)).map write = .ok (write a)

theorem kept_of_fits {α : Type} {fields : List Field} {ofMembers : List (String × Scalar) → α}
    {members : α → List (String × Scalar)} (fits : ∀ a, Fits fields (members a))
    (whole : ∀ a, ofMembers (members a) = a) :
    Kept (fun text => (readRecord fields text).map ofMembers) fun a => writeRecord (members a) := by
  have back (a : α) : (readRecord fields (writeRecord (members a))).map ofMembers = .ok a := by
    rw [readRecord_writeRecord (fits a), Except.map, whole]
  refine ⟨back, fun text a _ => ⟨back a, ?_⟩⟩
  simp only [back a]
  rfl

end Egress.Json

namespace Egress

open Json

namespace Site.Rule

theorem fits (r : Rule) : Fits fields r.members := by
  obtain ⟨host, recursive, block⟩ := r
  constructor <;> cases recursive <;> cases block <;> simp [Among, fields, members, Scalar.kind]

theorem ofMembers_members (r : Rule) : ofMembers r.members = r := by
  obtain ⟨host, recursive, block⟩ := r
  cases recursive <;> cases block <;> rfl

end Site.Rule

namespace Server

def Params.members (p : Params) : List (String × Scalar) :=
  [("addr", .text p.addr), ("login", .text p.login), ("password", .text p.password),
   ("keyid", .text p.keyId)]

theorem Params.fits (p : Params) : Fits Params.fields p.members := by
  constructor <;> simp [Among, fields, members, Scalar.kind]

def Key.members (k : Key) : List (String × Scalar) :=
  [("id", .text k.id), ("comment", .text k.comment), ("private_key", .text k.privateKey)]

theorem Key.fits (k : Key) : Fits Key.fields k.members := by
  constructor <;> simp [Among, fields, members, Scalar.kind]

end Server

-- Rules, parameters and keys are kept as they are, whatever their texts spell. A flag of a rule is
-- written only if it is set.
theorem Json.records_kept :
    Kept Site.Rule.ofJson Site.Rule.toJson ∧ Kept Server.Params.ofJson Server.Params.toJson ∧
      Kept Server.Key.ofJson Server.Key.toJson ∧
      ∀ r : Site.Rule, ∃ found, readRecord Site.Rule.fields r.toJson = .ok found ∧
        ("rec" ∈ found.map Prod.fst ↔ r.recursive) ∧ ("block" ∈ found.map Prod.fst ↔ r.block) := by
  refine ⟨kept_of_fits Site.Rule.fits Site.Rule.ofMembers_members,
    kept_of_fits Server.Params.fits fun _ => rfl, kept_of_fits Server.Key.fits fun _ => rfl,
    fun r => ⟨r.members, readRecord_writeRecord r.fits, ?_⟩⟩
  obtain ⟨host, recursive, block⟩ := r
  cases recursive <;> cases block <;> simp [Site.Rule.members]

def tangled : Site.Rule := { host := "\"\\/\u0001\u001f\n\u007f😀", block := true }

theorem tangled_kept :
    tangled.toJson =
      "\x7b\"host\":\"\\\"\\\\/\\u0001\\u001f\\n\u007f😀\",\"block\":true\x7d" ∧
      Site.Rule.ofJson tangled.toJson = .ok tangled := by
  obtain ⟨rules, -⟩ := Json.records_kept
  exact ⟨by decide, rules.back tangled⟩

end Egress
