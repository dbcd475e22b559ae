import LeanLibp2p.Quic.Conn

/-!
# The QUIC endpoint and its service

`quic_backend_ngtcp2_endpoint.c`, the parts of `quic_backend_ngtcp2_conn.c` that admit, close and
retire a connection, and `quic_service.c`: the connections of an endpoint, its event queue, and the
service that keeps a table of them and hands their events on. A connection pointer is the number of
its allocation. What the allocator, the TLS library and ngtcp2 answer are arguments.
-/

namespace LeanLibp2p.Quic

/-- A `libp2p_quic_event_type_t`, with the stream of those that carry one. -/
inductive EventType where
  | connIncoming
  | connEstablished
  | connClosed
  | stream (event : StreamEvent)
  | txDatagramReady
  deriving DecidableEq, Repr

/-- A `libp2p_quic_event_t` or `libp2p_quic_service_event_t`, less its error codes. -/
structure Event where
  type : EventType
  conn : Nat
  deriving DecidableEq, Repr

/-- `libp2p_quic_addr_family_t`. -/
inductive AddrFamily where
  | none
  | ip4
  | ip6
  deriving DecidableEq, Repr

/-- `libp2p_quic_addr_t`. -/
structure QuicAddr where
  family : AddrFamily
  ip : Bytes
  port : Nat
  hasPeerId : Bool
  peerId : Bytes
  deriving DecidableEq, Repr

/-- `libp2p_quic_addr_validate` (`quic_addr.c:141-188`); `peerIdValid` is
    `quic_addr_peer_id_is_valid`. -/
def QuicAddr.validate (peerIdValid : Bytes → Bool) (addr : QuicAddr) : Except QuicErr Unit :=
  if addr.family = .none then .error .addr
  else if addr.family = .ip4 ∧ (addr.ip.drop 4).any (· ≠ 0) then .error .addr
  else if addr.hasPeerId ∧ ¬ peerIdValid addr.peerId then .error .addr
  else if ¬ addr.hasPeerId ∧ addr.peerId ≠ [] then .error .addr
  else .ok ()

/-- The limits and roles of `libp2p_quic_endpoint_config_t`. -/
structure EndpointConfig where
  client : Bool
  server : Bool
  maxConnections : Nat
  maxIncomingConnections : Nat
  maxOutgoingConnections : Nat
  deriving DecidableEq, Repr

/-- `libp2p_quic_endpoint_t` (`quic_backend_ngtcp2_internal.h`): `connections` are the live ones, and
    `objects` holds every connection object that was ever allocated. -/
structure Endpoint where
  config : EndpointConfig
  bound : Bool := true
  closed : Bool := false
  objects : List Conn := []
  connections : List Nat := []
  retired : List Nat := []
  incomingCount : Nat := 0
  outgoingCount : Nat := 0
  nextTxConnection : Nat := 0
  lastTxConn : Option Nat := none
  events : List Event := []
  eventCap : Nat
  deriving DecidableEq, Repr

variable (endpoint : Endpoint)

/-- What setting up a connection is answered: whether its object could be allocated, and what the TLS
    library, the random source and ngtcp2 say to it. -/
structure ConnSetup where
  allocated : Bool := true
  made : Except QuicErr Unit := .ok ()

/-- How `quic_backend_handle_conn_error` treats an ngtcp2 error code
    (`quic_backend_ngtcp2_conn.c:696-776`). -/
inductive ConnError where
  /-- An error of the endpoint. -/
  | endpoint (e : QuicErr)
  /-- The connection is over. -/
  | finished
  /-- A protocol violation, which the connection is closed with. -/
  | violation
  deriving DecidableEq

namespace Endpoint

/-- The connection at a pointer. -/
def conn (c : Nat) : Conn := endpoint.objects.getD c {}

/-- Write to the connection at a pointer. -/
def update (c : Nat) (f : Conn → Conn) : Endpoint :=
  { endpoint with objects := endpoint.objects.modify c f }

/-- `quic_backend_validate_endpoint`. -/
def validate : Except QuicErr Unit :=
  if endpoint.closed then .error .closed else .ok ()

/-- `quic_backend_event_push` (`quic_backend_ngtcp2_util.c:208-245`). -/
def eventPush (type : EventType) (c : Nat) : Except QuicErr Unit × Endpoint :=
  if endpoint.eventCap = 0 then (.error .invalidArg, endpoint)
  else if endpoint.events.length = endpoint.eventCap then (.error .limit, endpoint)
  else (.ok (), { endpoint with events := endpoint.events ++ [⟨type, c⟩] })

/-- `quic_backend_conn_remove_live_at` (`quic_backend_ngtcp2_conn.c:223-269`). -/
def removeLiveAt (index c : Nat) : Endpoint :=
  let last := endpoint.connections.getLastD 0
  let connections := (endpoint.connections.set index last).dropLast
  let client := (endpoint.conn c).role = .client
  let next := endpoint.nextTxConnection
  { endpoint.update c fun conn => { conn with endpointRegistered := false } with
    connections := connections
    outgoingCount := if client then endpoint.outgoingCount - 1 else endpoint.outgoingCount
    incomingCount := if client then endpoint.incomingCount else endpoint.incomingCount - 1
    nextTxConnection :=
      if connections.length = 0 then 0
      else if index < next then next - 1
      else if connections.length ≤ next then 0
      else next
    lastTxConn := if endpoint.lastTxConn = some c then none else endpoint.lastTxConn }

/-- `quic_backend_conn_retire_from_endpoint` (`quic_backend_ngtcp2_conn.c:271-300`). -/
def retire (c : Nat) : Endpoint :=
  if (endpoint.conn c).endpointRegistered ∧ c ∈ endpoint.connections then
    let endpoint := endpoint.removeLiveAt (endpoint.connections.idxOf c) c
    { endpoint with retired := c :: endpoint.retired }
  else endpoint

/-- `quic_backend_conn_mark_closed` (`quic_backend_ngtcp2_conn.c:399-420`). -/
def markClosed (c : Nat) : Except QuicErr Unit × Endpoint :=
  if (endpoint.conn c).state ≠ .closed then
    let (result, endpoint) :=
      (endpoint.update c fun conn => { conn with state := .closed }).eventPush .connClosed c
    (result, endpoint.retire c)
  else (.ok (), endpoint.retire c)

/-- `quic_backend_conn_add_to_endpoint` (`quic_backend_ngtcp2_conn.c:422-458`). -/
def addConn (c : Nat) : Except QuicErr Endpoint :=
  let role := (endpoint.conn c).role
  let config := endpoint.config
  if endpoint.connections.length = config.maxConnections then .error .limit
  else if role = .client ∧ endpoint.outgoingCount = config.maxOutgoingConnections then .error .limit
  else if role = .server ∧ endpoint.incomingCount = config.maxIncomingConnections then .error .limit
  else
    .ok { endpoint.update c fun conn => { conn with endpointRegistered := true } with
      connections := endpoint.connections ++ [c]
      outgoingCount := endpoint.outgoingCount + if role = .client then 1 else 0
      incomingCount := endpoint.incomingCount + if role = .client then 0 else 1 }

/-- `quic_backend_conn_client_new` and `quic_backend_conn_server_new`
    (`quic_backend_ngtcp2_conn.c:460-640`), which differ in the role and in the event. A connection
    that could not be set up or added is freed. -/
def connNew (role : Role) (type : EventType) (setup : ConnSetup) : Except QuicErr Nat × Endpoint :=
  if ¬ setup.allocated then (.error .noMemory, endpoint)
  else
    let c := endpoint.objects.length
    let endpoint := { endpoint with objects := endpoint.objects ++ [{ role := role }] }
    match setup.made with
    | .error e => (.error e, endpoint)
    | .ok () =>
      match endpoint.addConn c with
      | .error e => (.error e, endpoint)
      | .ok endpoint => (.ok c, (endpoint.eventPush type c).2)

def clientNew (setup : ConnSetup) : Except QuicErr Nat × Endpoint :=
  endpoint.connNew .client .txDatagramReady setup

def serverNew (setup : ConnSetup) : Except QuicErr Nat × Endpoint :=
  endpoint.connNew .server .connIncoming setup

/-- The checks of `quic_backend_endpoint_dial`. -/
def checkDial (peerIdValid : Bytes → Bool) (addr : QuicAddr) (endpoint : Endpoint) :
    Except QuicErr Unit := do
  endpoint.validate
  if ¬ endpoint.config.client then throw .state
  if ¬ endpoint.bound then throw .state
  addr.validate peerIdValid
  if ¬ addr.hasPeerId ∨ addr.peerId.length = 0 then throw .addr

/-- `quic_backend_endpoint_dial` (`quic_backend_ngtcp2_endpoint.c:270-308`). -/
def dial (peerIdValid : Bytes → Bool) (addr : QuicAddr) (setup : ConnSetup) (endpoint : Endpoint) :
    Except QuicErr Nat × Endpoint :=
  match endpoint.checkDial peerIdValid addr with
  | .error e => (.error e, endpoint)
  | .ok () => endpoint.clientNew setup

/-- `quic_backend_endpoint_recv_datagram` (`quic_backend_ngtcp2_endpoint.c:310-391`) on a datagram of
    no connection. -/
def recvInitial (setup : ConnSetup) (endpoint : Endpoint) : Endpoint :=
  match endpoint.validate with
  | .error _ => endpoint
  | .ok () => if endpoint.config.server then (endpoint.serverNew setup).2 else endpoint

/-- `quic_backend_handshake_completed_cb` (`quic_backend_ngtcp2_callbacks.c:694-724`). -/
def handshakeCompleted (c : Nat) (endpoint : Endpoint) : Endpoint :=
  ((endpoint.update c fun conn => { conn with state := .established }).eventPush
    .connEstablished c).2

/-- `quic_backend_handle_conn_error` (`quic_backend_ngtcp2_conn.c:709-776`). -/
def handleConnError (c : Nat) (error : ConnError) (endpoint : Endpoint) :
    Except QuicErr Unit × Endpoint :=
  match error with
  | .endpoint e => (.error e, endpoint)
  | .finished => endpoint.markClosed c
  | .violation =>
    (endpoint.update c fun conn =>
      { conn with closeRequested := true, state := .closing }).eventPush .txDatagramReady c

/-- `quic_backend_conn_close` (`quic_backend_ngtcp2_conn.c:1212-1231`). -/
def connClose (c : Nat) (endpoint : Endpoint) : Except QuicErr Unit × Endpoint :=
  if (endpoint.conn c).state = .closed ∨ (endpoint.conn c).state = .drained then
    (.error .closed, endpoint)
  else
    (endpoint.update c fun conn =>
      { conn with closeRequested := true, state := .closing }).eventPush .txDatagramReady c

/-- `quic_backend_endpoint_close` (`quic_backend_ngtcp2_endpoint.c:621-645`). -/
def close : Endpoint :=
  match endpoint.validate with
  | .error _ => endpoint
  | .ok () =>
    endpoint.connections.foldl (fun endpoint c => endpoint.update c fun conn =>
      { conn with closeRequested := true, state := .closing }) endpoint

/-- `quic_backend_endpoint_release_retired_conn` (`quic_backend_ngtcp2_conn.c:354-397`). -/
def releaseRetired (c : Nat) (endpoint : Endpoint) : Except QuicErr Unit × Endpoint :=
  match endpoint.validate with
  | .error e => (.error e, endpoint)
  | .ok () =>
    if (endpoint.conn c).state ≠ .closed then (.error .state, endpoint)
    else if (endpoint.conn c).endpointRegistered ∨ endpoint.events.any (·.conn = c) then
      (.error .wouldBlock, endpoint)
    else if c ∈ endpoint.retired then
      (.ok (), { endpoint with retired := endpoint.retired.erase c })
    else (.error .notFound, endpoint)

end Endpoint

/-! ## The service -/

/-- `quic_service_conn_entry_t`. -/
structure ConnEntry where
  conn : Nat
  incoming : Bool := false
  established : Bool := false
  accepted : Bool := false
  closed : Bool := false
  deriving DecidableEq, Repr

/-- `libp2p_quic_service_t` (`quic_service.c:24-75`), with a table entry for each of `conns`. -/
structure Service where
  endpoint : Endpoint
  closed : Bool := false
  conns : List ConnEntry := []
  connCapacity : Nat
  events : List Event := []
  eventCapacity : Nat
  txPending : Bool := false
  pendingTxConn : Option Nat := none
  deriving DecidableEq, Repr

namespace Service

/-- `quic_service_validate`. -/
def validate (service : Service) : Except QuicErr Unit :=
  if service.closed then .error .closed else .ok ()

/-- `quic_service_event_push` (`quic_service.c:455-491`). -/
def eventPush (service : Service) (type : EventType) (c : Nat) : Except QuicErr Unit × Service :=
  if service.eventCapacity = 0 then (.error .invalidArg, service)
  else if service.events.length = service.eventCapacity then (.error .limit, service)
  else (.ok (), { service with events := service.events ++ [⟨type, c⟩] })

/-- `quic_service_find_conn`, as whether there is an entry. -/
def tracks (service : Service) (c : Nat) : Bool := service.conns.any (·.conn = c)

/-- Write to the entry of a connection. -/
def setEntry (service : Service) (c : Nat) (f : ConnEntry → ConnEntry) : Service :=
  { service with conns := service.conns.map fun entry => if entry.conn = c then f entry else entry }

/-- `quic_service_track_conn` (`quic_service.c:516-558`). -/
def trackConn (c : Nat) (incoming : Bool) (service : Service) : Except QuicErr Unit × Service :=
  if service.tracks c then
    (.ok (), service.setEntry c fun entry => { entry with incoming := entry.incoming || incoming })
  else if service.conns.length = service.connCapacity then (.error .limit, service)
  else (.ok (), { service with conns := service.conns ++ [{ conn := c, incoming := incoming }] })

/-- `quic_service_mark_conn_established` (`quic_service.c:560-581`). -/
def markConnEstablished (c : Nat) (service : Service) : Except QuicErr Unit × Service :=
  match service.trackConn c false with
  | (.error e, service) => (.error e, service)
  | (.ok (), service) => (.ok (), service.setEntry c fun entry => { entry with established := true })

/-- `quic_service_forget_conn` (`quic_service.c:597-621`), which moves the last entry into the gap. -/
def forgetConn (c : Nat) (service : Service) : Service :=
  match service.conns.findIdx? (·.conn = c), service.conns.getLast? with
  | some index, some last => { service with conns := (service.conns.set index last).dropLast }
  | _, _ => service

/-- `quic_service_translate_event` (`quic_service.c:670-785`). -/
def translateEvent (event : Event) (service : Service) : Except QuicErr Unit × Service :=
  match event.type with
  | .connIncoming =>
    match service.trackConn event.conn true with
    | (.error e, service) => (.error e, service)
    | (.ok (), service) => service.eventPush .connIncoming event.conn
  | .connEstablished =>
    match service.markConnEstablished event.conn with
    | (.error e, service) => (.error e, service)
    | (.ok (), service) => service.eventPush .connEstablished event.conn
  | .connClosed =>
    let (result, service) :=
      (service.setEntry event.conn fun entry => { entry with closed := true }).eventPush
        .connClosed event.conn
    (result, service.forgetConn event.conn)
  | .stream streamEvent => service.eventPush (.stream streamEvent) event.conn
  | .txDatagramReady => (.ok (), { service with txPending := true })

/-- The loop of `quic_service_drain_endpoint_events` (`quic_service.c:787-829`) over the endpoint's
    events. -/
def drainLoop : List Event → Service → Except QuicErr Unit × Service
  | [], service => (.ok (), service)
  | event :: events, service =>
    match ({ service with endpoint := { service.endpoint with events := events } }).translateEvent
      event with
    | (.error e, service) => (.error e, service)
    | (.ok (), service) => drainLoop events service

/-- `quic_service_drain_endpoint_events`. -/
def drainEndpointEvents (service : Service) : Except QuicErr Unit × Service :=
  match service.endpoint.validate with
  | .error e => (.error e, service)
  | .ok () => drainLoop service.endpoint.events service

/-- `libp2p_quic_service_next_event` (`quic_service.c:1362-1389`). -/
def nextEvent (service : Service) : Except QuicErr Event × Service :=
  match service.validate with
  | .error e => (.error e, service)
  | .ok () =>
    match service.events with
    | [] => (.error .wouldBlock, service)
    | event :: events => (.ok event, { service with events := events })

/-- `libp2p_quic_service_dial` (`quic_service.c:1530-1566`). -/
def dial (peerIdValid : Bytes → Bool) (addr : QuicAddr) (setup : ConnSetup) (service : Service) :
    Except QuicErr Nat × Service :=
  match service.validate with
  | .error e => (.error e, service)
  | .ok () =>
    match service.endpoint.dial peerIdValid addr setup with
    | (.error e, endpoint) => (.error e, { service with endpoint := endpoint })
    | (.ok c, endpoint) =>
      match ({ service with endpoint := endpoint }).trackConn c false with
      | (.error e, service) => (.error e, service)
      | (.ok (), service) => (.ok c, { service with txPending := true })

/-- `libp2p_quic_service_conn_close` (`quic_service.c:1631-1648`). -/
def connClose (c : Nat) (service : Service) : Except QuicErr Unit × Service :=
  match service.validate with
  | .error e => (.error e, service)
  | .ok () =>
    match service.endpoint.connClose c with
    | (.error e, endpoint) => (.error e, { service with endpoint := endpoint })
    | (.ok (), endpoint) => (.ok (), { service with endpoint := endpoint, txPending := true })

/-- `libp2p_quic_service_close` (`quic_service.c:1607-1621`). -/
def close (service : Service) : Except QuicErr Unit × Service :=
  match service.validate with
  | .error e => (.error e, service)
  | .ok () =>
    match service.endpoint.validate with
    | .error e => (.error e, service)
    | .ok () => (.ok (), { service with endpoint := service.endpoint.close, txPending := true })

/-- `libp2p_quic_service_conn_release` (`quic_service.c:1650-1675`). -/
def connRelease (c : Nat) (service : Service) : Except QuicErr Unit × Service :=
  match service.validate with
  | .error e => (.error e, service)
  | .ok () =>
    if service.pendingTxConn = some c ∨ service.tracks c ∨ service.events.any (·.conn = c) then
      (.error .wouldBlock, service)
    else
      let (result, endpoint) := service.endpoint.releaseRetired c
      (result, { service with endpoint := endpoint })

end Service

end LeanLibp2p.Quic
