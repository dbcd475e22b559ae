import LeanLibp2p.Gossipsub.Router.Validation
import LeanLibp2p.Gossipsub.Router.MessageIds
import LeanLibp2p.Gossipsub.Router.Tokens
import LeanLibp2p.Gossipsub.Router.EventSafety
import LeanLibp2p.Gossipsub.Router.CacheWindows
import LeanLibp2p.Gossipsub.Rx.Readiness
import LeanLibp2p.Gossipsub.Rx.Load
import LeanLibp2p.Host.Shutdown
import LeanLibp2p.Host.Admission
import LeanLibp2p.Host.Outcomes
import LeanLibp2p.Ping.Responder
import LeanLibp2p.Identify.Conformance
import LeanLibp2p.Quic.SignedKeyCodec
import LeanLibp2p.Quic.AckExact
import LeanLibp2p.Quic.StreamWrite
import LeanLibp2p.Gossipsub.Router.Renaming
import LeanLibp2p.Gossipsub.Router.MeshTargets
import LeanLibp2p.Gossipsub.Router.Idontwants
import LeanLibp2p.Gossipsub.Router.Deadlines
import LeanLibp2p.Gossipsub.Router.Suppression
import LeanLibp2p.Gossipsub.Codec.Measure
import LeanLibp2p.Quic.Addr
import LeanLibp2p.Quic.StreamRx
import LeanLibp2p.Quic.Credit
import LeanLibp2p.Quic.Deadline
import LeanLibp2p.Multiaddr.Ipv6Conformance
import LeanLibp2p.Multiformats.MultistreamCodec
import LeanLibp2p.Gossipsub.Layout
import LeanLibp2p.Host.Callbacks
import LeanLibp2p.Gossipsub.Router.TopicSettings
