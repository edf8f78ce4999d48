import Egress.Site.Route
import Egress.Server.Params

set_option autoImplicit false

namespace Egress.Server

structure Store where
  sites : List Site.Rule := []
  keys : List Key := []
  params : Params := {}

namespace Store

def setSites (s : Store) (sites : List Site.Rule) : Store := { s with sites }

def setParams (s : Store) (params : Params) : Store := { s with params }

def withoutKey (s : Store) (id : String) : Store :=
  { s with keys := s.keys.filter (·.id != id) }

-- A key replaces every key of its id and goes to the end.
def putKey (s : Store) (key : Key) : Store :=
  { s with keys := (s.withoutKey key.id).keys ++ [key] }

def removeKey (s : Store) (id : String) : Store × Bool :=
  (s.withoutKey id, (s.withoutKey id).keys.length != s.keys.length)

def keyById (s : Store) (id : String) : Option Key := findKey s.keys id

end Store

end Egress.Server
