import Nightcore.Protocol
import Nightcore.Gateway.State
import Nightcore.Gateway.Handlers
import Nightcore.Gateway.Run
import Nightcore.Proofs.Admission
import Nightcore.Proofs.Finalization
import Nightcore.Proofs.PayloadSize
import Nightcore.Proofs.Dispatch
import Nightcore.Proofs.Keys
import Nightcore.Proofs.CallIdWrap
import Nightcore.Proofs.Residency
import Nightcore.Watchdog.GatewayConnection
import Nightcore.Proofs.Framing
import Nightcore.Proofs.Accounting
import Nightcore.Proofs.FinishOnce
import Nightcore.Gateway.Handshake
import Nightcore.Gateway.Dispatchers
import Nightcore.Proofs.Handshake
import Nightcore.Proofs.Dispatchers
import Nightcore.Proofs.WorkConserving
import Nightcore.Proofs.Handover
import Nightcore.Proofs.Lifetime
import Nightcore.Proofs.Lifecycle
import Nightcore.Gateway.Acceptor
import Nightcore.Gateway.Ingress
import Nightcore.Proofs.Balance
import Nightcore.Proofs.OutputRegions
import Nightcore.Proofs.Routing
import Nightcore.Proofs.Stages
