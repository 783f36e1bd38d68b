/-
# A service in a scene

Key definitions: `Scene.launch`.
-/
import Raop.Scene
import Raop.Service

namespace Raop

/-- A service starts, and the session's client comes to its server of a kind. Those who see the scene
come after the service, so they do not hear it start. -/
def Scene.launch (host : Host) (config : ServiceConfig) (kind : ServerKind) (s : Scene) :
    Except ServiceError Scene × Service :=
  match Service.start host config with
  | (.error e, v) => (.error e, v)
  | (.ok (), v) =>
    match s.listen (v.port? kind) with
    | .error e => (.error (.server e), v)
    | .ok s => (.ok { s with server := { s.server with events := s.server.events.drop 1 } }, v)

end Raop
