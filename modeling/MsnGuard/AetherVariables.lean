import MsnGuard.ProcessEnvironments
import MsnGuard.RustText

/-!
# The variables of the engine

The engine takes its options from the variables of the process whose names
begin with AETHER_. The app and the session runtime write them before a start,
and the engine writes some of them itself while it runs.
-/

namespace MsnGuard.AetherVariables

open ProcessEnvironments RustText

/-- A variable by its name without AETHER_, in camel case. Those that only the
command line writes, or nothing, are kept together under their names. -/
inductive Var where
  | accessClientId | accessClientSecret | accessEmail | accessToken | apiEch | config
  | disableGrease | dns | ech | echDns | echDomain | enrollAddress | exitLoc | exitLocSecs
  | goolInner | goolMode | httpProxy | ip | localUdpAssociate | logLevel | masqueH2Fragment
  | masqueH2FragmentDelay | masqueH2FragmentSize | masqueH2FragmentSni | masqueHttp2 | masqueMtu
  | masqueSni | mimInnerPeer | noize | peer | perfProfile | protocol | psiphon | ptechScan
  | quickReconnect | register | routeBlock | routeDirect | routesFile | scan | scanCidrsV4
  | scanCidrsV6 | sni | socks | stats | statsSecs | team | teamEndpoint | tlsCiphers | tlsGroups
  | tlsVerify | tor | torBind | torBridges | torDir | torHttp | torHttpProxy | torPt | upstream
  | wgMtu | wgNoDataCheck | wgPeer | wgPorts | wiwInnerPeer | wiwOuterPeer | wiwPeers
  | other (name : Text)
  deriving DecidableEq

/-- What the process holds in the variables. -/
abbrev Env := ProcessEnvironments.Env Var Text

/-- A list of writes to the variables. -/
abbrev Writes := List (Write Var Text)

/-- Set one variable. -/
def put (k : Var) (v : Text) : Writes := [.set k v]

/-- Remove one variable. -/
def remove (k : Var) : Writes := [.unset k]

@[simp] theorem keys_put (k : Var) (v : Text) : keys (put k v)=[k] := rfl

@[simp] theorem keys_remove (k : Var) : keys (remove k)=[k] := rfl

@[simp] theorem removed_put (k : Var) (v : Text) : removed (put k v)=[] := rfl

@[simp] theorem removed_remove (k : Var) : removed (remove k)=[k] := rfl

end MsnGuard.AetherVariables
