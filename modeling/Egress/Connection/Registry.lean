import Egress.Address.Local
import Egress.Connection.Basic

set_option autoImplicit false

namespace Egress

structure Member where
  id : Nat
  scope : Scope
  localIp : Option Ip
  deriving DecidableEq, Repr

structure ScopeEntry where
  scope : Nat
  ids : List Nat
  watch : Nat
  deriving DecidableEq, Repr

structure AddressEntry where
  ip : Ip
  ids : List Nat
  deriving DecidableEq, Repr

-- Resolves when its scope is cancelled or when its entry is gone.
structure ScopeWatch where
  number : Nat
  scope : Scope
  unwatched : Bool := false
  deriving DecidableEq, Repr

structure Registry where
  members : List Member := []
  byScope : List ScopeEntry := []
  byAddress : List AddressEntry := []
  watches : List ScopeWatch := []
  nextWatch : Nat := 0
  deriving DecidableEq, Repr

def Connection.member (c : Connection) : Member :=
  { id := c.id, scope := c.scope, localIp := c.localIp }

namespace Registry

def has (r : Registry) (id : Nat) : Bool := r.members.any (·.id = id)

def fileAddress (entries : List AddressEntry) (ip : Ip) (id : Nat) : List AddressEntry :=
  if entries.any (·.ip = ip) then
    entries.map fun e => if e.ip = ip then { e with ids := e.ids ++ [id] } else e
  else entries ++ [{ ip, ids := [id] }]

def fileScope (r : Registry) (scope : Scope) (id : Nat) : Registry :=
  if r.byScope.any (·.scope = scope.id) then
    { r with
      byScope := r.byScope.map fun e =>
        if e.scope = scope.id then { e with ids := e.ids ++ [id] } else e }
  else
    { r with
      byScope := r.byScope ++ [{ scope := scope.id, ids := [id], watch := r.nextWatch }]
      watches := r.watches ++ [{ number := r.nextWatch, scope }]
      nextWatch := r.nextWatch + 1 }

def add? (r : Registry) (m : Member) : Option Registry :=
  if r.has m.id then none
  else
    let byAddress := match m.localIp with
      | some ip => fileAddress r.byAddress ip m.id
      | none => r.byAddress
    some (({ r with members := r.members ++ [m], byAddress }).fileScope m.scope m.id)

def unwatch (r : Registry) (watch : Nat) : Registry :=
  { r with
    watches := r.watches.map fun w => if w.number = watch then { w with unwatched := true } else w }

def unfileAddress (entries : List AddressEntry) (ip : Ip) (id : Nat) : List AddressEntry :=
  (entries.map fun e => if e.ip = ip then { e with ids := e.ids.filter (· != id) } else e).filter
    fun e => !e.ids.isEmpty

def unfileScope (r : Registry) (scope id : Nat) : Registry :=
  match r.byScope.find? (·.scope = scope) with
  | none => r
  | some e =>
    let ids := e.ids.filter (· != id)
    if ids.isEmpty then
      ({ r with byScope := r.byScope.filter (·.scope != scope) }).unwatch e.watch
    else
      { r with byScope := r.byScope.map fun e => if e.scope = scope then { e with ids } else e }

def remove (r : Registry) (id : Nat) : Registry :=
  match r.members.find? (·.id = id) with
  | none => r
  | some m =>
    let byAddress := match m.localIp with
      | some ip => unfileAddress r.byAddress ip id
      | none => r.byAddress
    ({ r with members := r.members.filter (·.id != id), byAddress }).unfileScope m.scope.id id

def present (r : Registry) (ids : List Nat) : List Nat := ids.filter r.has

def scopeDone (r : Registry) (scope : Nat) : Registry × List Nat :=
  match r.byScope.find? (·.scope = scope) with
  | none => (r, [])
  | some e =>
    (({ r with byScope := r.byScope.filter (·.scope != scope) }).unwatch e.watch, r.present e.ids)

def stranded (r : Registry) (addresses : LocalAddresses) : List Nat :=
  r.present ((r.byAddress.filter fun e => !addresses.contains e.ip).flatMap (·.ids))

def ScopeWatch.isResolved (w : ScopeWatch) (cancelled : Nat → Bool) : Bool :=
  w.unwatched || cancelled w.scope.token

def resolved? (r : Registry) (cancelled : Nat → Bool) : Option ScopeWatch :=
  r.watches.find? (ScopeWatch.isResolved · cancelled)

def dropWatch (r : Registry) (number : Nat) : Registry :=
  { r with watches := r.watches.filter (·.number != number) }

end Registry

end Egress
