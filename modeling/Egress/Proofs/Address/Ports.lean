import Egress.Address.HostPort
import Egress.Proofs.World.Effects

set_option autoImplicit false

namespace Egress

namespace HostPort

variable {stop : Char} {front back cs : List Char}

theorem cutFirst_append (absent : stop ∉ front) :
    cutFirst stop (front ++ stop :: back) = some (front, back) := by
  induction front with
  | nil => simp [cutFirst]
  | cons c rest ih =>
    have other : c ≠ stop := (List.ne_of_not_mem_cons absent).symm
    have later : stop ∉ rest := List.not_mem_of_not_mem_cons absent
    simp [cutFirst, other, ih later]

theorem cutLast_eq_none (absent : stop ∉ cs) : cutLast stop cs = none := by
  induction cs with
  | nil => rfl
  | cons c rest ih =>
    have other : c ≠ stop := (List.ne_of_not_mem_cons absent).symm
    have later : stop ∉ rest := List.not_mem_of_not_mem_cons absent
    simp [cutLast, other, ih later]

theorem cutLast_append (absent : stop ∉ back) :
    cutLast stop (front ++ stop :: back) = some (front, back) := by
  induction front with
  | nil => simp [cutLast, cutLast_eq_none absent]
  | cons c rest ih => simp [cutLast, ih]

theorem count_cut (absent : stop ∉ back) :
    (front ++ stop :: back).count stop = front.count stop + 1 := by
  rw [List.count_append, List.count_cons_self, List.count_eq_zero.mpr absent]

theorem exists_cut (present : stop ∈ cs) :
    ∃ front back, cs = front ++ stop :: back ∧ stop ∉ back := by
  obtain ⟨back, front, reversed, absent⟩ :=
    List.eq_append_cons_of_mem (List.mem_reverse.mpr present)
  refine ⟨front.reverse, back.reverse, ?_, by simpa using absent⟩
  rw [← cs.reverse_reverse, reversed]
  simp

def Plain (text : String) : Prop := '[' ∉ text.toList ∧ ']' ∉ text.toList

def colons (text : String) : Nat := text.toList.count ':'

-- An address that names a host, and a port if it has one. With a single colon and no brackets, the
-- port is what comes after the colon. It may be empty.
inductive Names : String → (host : String) → (port : Option String) → Prop
  | host {host : String} : Plain host → colons host ≠ 1 → Names host host none
  | port {host port : String} : Plain host → ':' ∉ host.toList → ':' ∉ port.toList →
      Names (host ++ ":" ++ port) host (some port)
  | bracketed {host : String} : Plain host → Names ("[" ++ host ++ "]") host none
  | bracketedPort {host port : String} : Plain host → ':' ∉ port.toList →
      Names ("[" ++ host ++ "]:" ++ port) host (some port)

theorem splitChars_of_head {hostport port : List Char} (head : hostport.head? ≠ some '[') :
    splitChars hostport port =
      match cutLast ':' hostport with
      | some (host, given) => if ':' ∈ host then (hostport, port) else (host, given)
      | none => (hostport, port) := by
  unfold splitChars
  split
  · simp at head
  · rfl

theorem Plain.head {text : String} (plain : Plain text) (rest : List Char)
    (other : rest.head? ≠ some '[') : (text.toList ++ rest).head? ≠ some '[' := by
  have inside := plain.1
  cases listed : text.toList with
  | nil => exact other
  | cons c cs =>
    rw [listed] at inside
    simpa using (List.ne_of_not_mem_cons inside).symm

theorem splitChars_of_colons {hostport : List Char} (head : hostport.head? ≠ some '[')
    (several : hostport.count ':' ≠ 1) (port : List Char) :
    splitChars hostport port = (hostport, port) := by
  rw [splitChars_of_head head]
  by_cases present : ':' ∈ hostport
  next =>
    obtain ⟨front, back, rfl, absent⟩ := exists_cut present
    have before : ':' ∈ front := by
      rw [count_cut absent] at several
      exact List.count_pos_iff.mp (by omega)
    rw [cutLast_append absent]
    simp [before]
  next => rw [cutLast_eq_none present]

namespace Names

variable {address host : String} {port : Option String}

theorem plain (named : Names address host port) : Plain host := by
  cases named <;> assumption

theorem split (named : Names address host port) (default : String) :
    splitWithDefault address default = (host, port.getD default) := by
  unfold splitWithDefault
  cases named with
  | host plain several =>
    have head := plain.head [] (by simp)
    rw [List.append_nil] at head
    simp [splitChars_of_colons head several]
  | @port host port plain colonless given =>
    have head := plain.head (':' :: port.toList) (by simp)
    have chars : (host ++ ":" ++ port).toList = host.toList ++ ':' :: port.toList := by simp
    simp [chars, splitChars_of_head head, cutLast_append given, colonless]
  | bracketed plain => simp [splitChars, cutFirst_append plain.2]
  | bracketedPort plain given => simp [splitChars, cutFirst_append plain.2]

end Names

def join (host port : String) : String :=
  if ':' ∈ host.toList then "[" ++ host ++ "]:" ++ port else host ++ ":" ++ port

theorem join_eq (host port : String) :
    join host port = String.ofList (joinChars host.toList port.toList) := by
  rw [← String.toList_inj, String.toList_ofList]
  unfold join joinChars
  split <;> simp

theorem Names.join {host port : String} (plain : Plain host) (given : ':' ∉ port.toList) :
    Names (join host port) host (some port) := by
  unfold HostPort.join
  split
  next => exact .bracketedPort plain given
  next colonless => exact .port plain colonless given

theorem decimal_colonless (port : Nat) : ':' ∉ (toString port).toList := by
  rw [Nat.toString_eq_ofList_toDigits, String.toList_ofList]
  intro inside
  have digit := Nat.isDigit_of_mem_toDigits (by decide) (by decide) inside
  exact absurd digit (by decide)

theorem decimal_ne_empty (port : Nat) : toString port ≠ "" := by
  rw [Nat.toString_eq_ofList_toDigits, ne_eq, String.ofList_eq_empty_iff]
  exact Nat.toDigits_ne_nil

theorem withDefaultPort_eq (address : String) (port : Nat) :
    withDefaultPort address port =
      let (host, given) := splitWithDefault address (toString port)
      if given = "" then host else join host given := by
  have decimal : (toString port).toList = decimal port := by
    rw [Nat.toString_eq_ofList_toDigits, String.toList_ofList]
    rfl
  simp only [withDefaultPort, splitWithDefault, decimal, join_eq, String.toList_ofList,
    String.ofList_eq_empty_iff, List.isEmpty_iff]
  split <;> rfl

namespace Names

variable {address host : String} {port : Option String}

theorem withDefault (named : Names address host port) (default : Nat) :
    withDefaultPort address default =
      if port = some "" then host else HostPort.join host (port.getD (toString default)) := by
  rw [withDefaultPort_eq, named.split]
  cases port with
  | none => simp
  | some given => simp

theorem port_colonless (named : Names address host port) (default : Nat) :
    ':' ∉ (port.getD (toString default)).toList := by
  cases named with
  | host | bracketed => exact decimal_colonless default
  | port _ _ given | bracketedPort _ given => exact given

end Names

inductive Given : String → Prop
  | plain {address : String} : Plain address → Given address
  | bracketed {host : String} : Plain host → Given ("[" ++ host ++ "]")
  | bracketedPort {host port : String} : Plain host → port ≠ "" → ':' ∉ port.toList →
      Given ("[" ++ host ++ "]:" ++ port)

def Ends (address : String) : Prop := ∀ name : String, ':' ∉ name.toList → address ≠ name ++ ":"

theorem Plain.cut {address : String} (plain : Plain address) (single : colons address = 1) :
    ∃ host port : String, address = host ++ ":" ++ port ∧ Plain host ∧ ':' ∉ host.toList ∧
      ':' ∉ port.toList := by
  unfold colons at single
  unfold Plain at plain
  have present : ':' ∈ address.toList := List.count_pos_iff.mp (by omega)
  obtain ⟨front, back, chars, absent⟩ := exists_cut present
  rw [chars, count_cut absent, Nat.add_eq_right, List.count_eq_zero] at single
  rw [chars] at plain
  refine ⟨.ofList front, .ofList back, ?_, ?_, by simpa using single, by simpa using absent⟩
  · rw [← String.toList_inj, chars]
    simp
  · simp_all [Plain]

theorem Given.names {address : String} (given : Given address) (ends : Ends address) :
    ∃ host port, Names address host port ∧ port ≠ some "" := by
  cases given with
  | plain plain =>
    by_cases single : colons address = 1
    next =>
      obtain ⟨host, port, rfl, plain, colonless, last⟩ := plain.cut single
      refine ⟨host, some port, .port plain colonless last, fun empty => ends host colonless ?_⟩
      rw [Option.some.inj empty, String.append_empty]
    next => exact ⟨_, _, .host plain single, by simp⟩
  | bracketed plain => exact ⟨_, _, .bracketed plain, by simp⟩
  | bracketedPort plain filled colonless =>
    exact ⟨_, _, .bracketedPort plain colonless, by simpa using filled⟩

-- To take an address apart undoes putting it together. With its default port an address is what it
-- comes apart to, put together; it comes apart to the same again, and no port is added twice.
theorem split_join :
    (∀ host port : String, Plain host → port ≠ "" → ':' ∉ port.toList →
      ∀ default, splitWithDefault (join host port) default = (host, port)) ∧
    ∀ address : String, Given address → Ends address → ∀ p q : Nat,
      withDefaultPort address p = Function.uncurry join (splitWithDefault address (toString p)) ∧
      (∀ default, splitWithDefault (withDefaultPort address p) default =
        splitWithDefault address (toString p)) ∧
      withDefaultPort (withDefaultPort address p) q = withDefaultPort address p := by
  constructor
  · intro host port plain _ colonless default
    exact (Names.join plain colonless).split default
  · intro address given ends p q
    obtain ⟨host, port, named, filled⟩ := given.names ends
    have apart := named.split (toString p)
    have whole : withDefaultPort address p = join host (port.getD (toString p)) := by
      rw [named.withDefault, if_neg filled]
    have again := Names.join named.plain (named.port_colonless p)
    have kept : port.getD (toString p) ≠ "" := by
      cases port with
      | none => exact decimal_ne_empty p
      | some given => simpa using filled
    refine ⟨by rw [whole, apart, Function.uncurry_apply_pair], fun default => ?_, ?_⟩
    · rw [whole, again.split, apart, Option.getD_some]
    · rw [whole, again.withDefault, if_neg (by simpa using kept), Option.getD_some]

theorem split_join_colons :
    splitWithDefault (join "fe80::1" "22") "9" = ("fe80::1", "22") ∧
      Given "fe80::1" ∧ Ends "fe80::1" ∧ withDefaultPort "fe80::1" 22 = "[fe80::1]:22" ∧
      splitWithDefault (withDefaultPort "fe80::1" 22) "9" = ("fe80::1", "22") ∧
      withDefaultPort (withDefaultPort "fe80::1" 22) 7 = withDefaultPort "fe80::1" 22 := by
  have plain : Plain "fe80::1" := by unfold Plain; decide
  have ends : Ends "fe80::1" := by
    intro name _ same
    have last := congrArg (·.toList.getLast?) same
    simp at last
  obtain ⟨undone, kept⟩ := split_join
  obtain ⟨whole, apart, stays⟩ := kept "fe80::1" (.plain plain) ends 22 7
  refine ⟨undone _ _ plain (by decide) (by decide) _, .plain plain, ends, whole.trans ?_,
    (apart "9").trans ?_, stays⟩
  · decide
  · decide

def portOr (port : Option String) (default : Nat) : String :=
  if port = some "" then toString default else port.getD (toString default)

namespace Names

variable {address host : String} {port : Option String}

theorem filled (named : Names address host port) (filled : host ≠ "") : address ≠ "" := by
  cases named with
  | host => exact filled
  | _ => simp

theorem split_host (plain : Plain host) (default : Nat) :
    splitWithDefault host "" ≠ (host, toString default) := by
  by_cases single : colons host = 1
  next =>
    obtain ⟨front, back, rfl, plain, colonless, last⟩ := plain.cut single
    rw [(Names.port plain colonless last).split]
    intro same
    have length := congrArg (·.1.toList.length) same
    simp at length
  next =>
    rw [(Names.host plain single).split]
    intro same
    exact decimal_ne_empty default (congrArg Prod.snd same).symm

-- With the default port, an address comes apart to its host and to the port that is asked for,
-- unless it stops at the colon of an empty one. Then nothing but its host is left.
theorem split_withDefault (named : Names address host port) (default : Nat) :
    (splitWithDefault (withDefaultPort address default) "" = (host, portOr port default) ↔
      port ≠ some "") ∧
      (port = some "" → withDefaultPort address default = host) := by
  rw [named.withDefault]
  by_cases empty : port = some ""
  next =>
    have alone := split_host named.plain default
    simpa [empty, portOr] using alone
  next =>
    have together := Names.join named.plain (named.port_colonless default)
    rw [if_neg empty, together.split, portOr, if_neg empty]
    simp [empty]

end Names

end HostPort

namespace World

theorem awaitDrain_keeps (w : World) (g : Nat) :
    (w.awaitDrain g).1.generations = w.generations ∧ (w.awaitDrain g).1.current = w.current := by
  unfold awaitDrain
  split <;> exact ⟨rfl, rfl⟩

theorem swap_serverAddr {w : World} {old : Tunnel.Generation} {params : Server.Params}
    (found : w.generation? w.current = some old) (changes : old.params ≠ params)
    (filled : params.addr ≠ "") :
    ∃ g, (w.swap params).1.generation? (w.swap params).1.current = some g ∧ g.params = params ∧
      g.serverAddr = HostPort.withDefaultPort params.addr w.settings.defaultServerPort := by
  unfold swap
  dsimp only
  rw [found]
  dsimp only
  rw [if_neg changes]
  obtain ⟨bus, announced, -⟩ := setConnectivity_eq _ _ ""
  rw [announced]
  let fresh :=
    Tunnel.Generation.make (w.scopes.child w.root).2 params w.keys w.settings.defaultServerPort
  refine ⟨fresh, ?_, rfl, ?_⟩
  · rw [generation?, (awaitDrain_keeps _ _).1, (awaitDrain_keeps _ _).2]
    exact List.getElem?_concat_length
  · exact if_neg (by simpa using filled)

open HostPort in
-- Whatever address the server is given, after a reconnect the one that is dialed has its host and a
-- port, the default one if it names none. An address that stops at the colon before its port is the
-- exception, it gets no port at all.
theorem swap_dials {params : Server.Params} {host : String} {port : Option String}
    (named : Names params.addr host port) (filled : host ≠ "") :
    (∀ default, (splitWithDefault (withDefaultPort params.addr default) "" =
        (host, portOr port default) ↔ port ≠ some "") ∧
      (port = some "" → withDefaultPort params.addr default = host)) ∧
    ∀ (w : World) (old : Tunnel.Generation), w.generation? w.current = some old →
      old.params ≠ params →
        ∃ g, (w.swap params).1.generation? (w.swap params).1.current = some g ∧ g.params = params ∧
          g.serverAddr = withDefaultPort params.addr w.settings.defaultServerPort :=
  ⟨named.split_withDefault, fun _ _ found changes =>
    swap_serverAddr found changes (named.filled filled)⟩

def unconfigured : World := { generations := [{ scope := { id := 0, token := 0 } }] }

theorem unconfigured_dials :
    ∃ g, (unconfigured.swap { addr := "[fe80::1]" }).1.generation? 1 = some g ∧
      g.serverAddr = "[fe80::1]:22" ∧
      HostPort.splitWithDefault g.serverAddr "" = ("fe80::1", "22") := by
  have plain : HostPort.Plain "fe80::1" := by unfold HostPort.Plain; decide
  have named : HostPort.Names ({ addr := "[fe80::1]" } : Server.Params).addr "fe80::1" none :=
    .bracketed plain
  obtain ⟨dials, reconnects⟩ := swap_dials named (by decide)
  obtain ⟨g, found, -, address⟩ := reconnects unconfigured _ rfl (by decide)
  have whole : HostPort.withDefaultPort "[fe80::1]" unconfigured.settings.defaultServerPort =
      "[fe80::1]:22" := by decide
  refine ⟨g, ?_, address.trans whole, ?_⟩
  · exact found
  · rw [address]
    exact (dials _).1.mpr (by simp)

-- With the colon but no port after it, no port is dialed, although a default one is there.
theorem swap_dials_portless :
    HostPort.Names "tunnel.test:" "tunnel.test" (some "") ∧
      HostPort.withDefaultPort "tunnel.test:" 22 = "tunnel.test" ∧
      HostPort.splitWithDefault (HostPort.withDefaultPort "tunnel.test:" 22) "" =
        ("tunnel.test", "") := by
  have plain : HostPort.Plain "tunnel.test" := by unfold HostPort.Plain; decide
  have named : HostPort.Names ("tunnel.test" ++ ":" ++ "") "tunnel.test" (some "") :=
    .port plain (by decide) (by decide)
  exact ⟨named, by decide, by decide⟩

end World

end Egress
