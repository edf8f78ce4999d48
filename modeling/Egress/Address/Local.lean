import Egress.Address.Ip

set_option autoImplicit false

namespace Egress

structure LocalAddresses where
  ips : List Ip := []
  deriving DecidableEq, Repr

namespace LocalAddresses

def contains (a : LocalAddresses) (ip : Ip) : Bool := a.ips.contains ip

def insert (a : LocalAddresses) (ip : Ip) : LocalAddresses :=
  if a.contains ip.normalize then a else { ips := a.ips ++ [ip.normalize] }

def remove (a : LocalAddresses) (ip : Ip) : LocalAddresses :=
  { ips := a.ips.filter (· != ip.normalize) }

def ofList (ips : List Ip) : LocalAddresses := ips.foldl insert {}

def same (a b : LocalAddresses) : Bool := a.ips.all b.contains && b.ips.all a.contains

def sorted (a : LocalAddresses) : List Ip := a.ips.mergeSort Ip.before

end LocalAddresses

end Egress
