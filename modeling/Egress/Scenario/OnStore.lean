import Egress.Server.Store

set_option autoImplicit false

namespace Egress.Scenario.OnStore

open Server

inductive Step
  | setSites (sites : List Site.Rule)
  | putKey (key : Key)
  | removeKey (id : String)
  | keyById (id : String)
  | setParams (params : Params)
  | credentials
  | route (host : String)

inductive Reply
  | nothing
  | flag (value : Bool)
  | key (found : Option Key)
  | credentials (found : Option Credentials)
  | route (disposition : Site.Disposition)

def perform (s : Store) : Step → Store × Reply
  | .setSites sites => (s.setSites sites, .nothing)
  | .putKey key => (s.putKey key, .nothing)
  | .removeKey id =>
    let (s, found) := s.removeKey id
    (s, .flag found)
  | .keyById id => (s, .key (s.keyById id))
  | .setParams params => (s.setParams params, .nothing)
  | .credentials => (s, .credentials (s.params.credentials s.keys))
  | .route host => (s, .route (Site.route s.sites host))

def play : Store → List Step → List (Reply × Store)
  | _, [] => []
  | s, step :: rest =>
    let (s, reply) := perform s step
    (reply, s) :: play s rest

end Egress.Scenario.OnStore
