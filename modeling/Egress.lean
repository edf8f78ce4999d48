import Egress.Main
import Egress.Scenario.OnBus
import Egress.Scenario.OnScopes
import Egress.Scenario.OnStats
import Egress.Scenario.OnStore
import Egress.Scenario.OnSubscribers
import Egress.Scenario.OnWatch
import Egress.Proofs.World.Draining
import Egress.Proofs.World.Effects
import Egress.Proofs.World.TunnelEffects
import Egress.Proofs.World.MoveEffects
import Egress.Proofs.World.Supervising
import Egress.Proofs.World.Reporting
import Egress.Proofs.World.Releasing
import Egress.Proofs.Connection.Registry
import Egress.Proofs.World.Registering
import Egress.Proofs.World.TearingDown
import Egress.Proofs.World.Dating
import Egress.Proofs.World.Validating
import Egress.Proofs.Event.Delivering
import Egress.Proofs.World.Tallying
import Egress.Proofs.World.Stopping
import Egress.Proofs.World.Looking
import Egress.Proofs.Event.Isolation
import Egress.Proofs.Event.Rereading
import Egress.Proofs.World.Agreeing
import Egress.Proofs.World.Informing
import Egress.Proofs.Site.Suffixes
import Egress.Proofs.Event.Draining
import Egress.Proofs.Connection.Supervisor
import Egress.Proofs.World.Isolating
import Egress.Proofs.Event.Ending
import Egress.Proofs.World.Admitting
import Egress.Proofs.World.Severing
import Egress.Proofs.World.Riding
import Egress.Proofs.World.Recounting
import Egress.Proofs.World.Demanding
import Egress.Proofs.World.Cancelling
import Egress.Proofs.Json.RoundTrip
import Egress.Proofs.Address.Ports
import Egress.Proofs.Server.Keys
import Egress.Proofs.Scope.Lineage
import Egress.Proofs.World.Abandoning
