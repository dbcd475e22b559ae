import LeanLibp2p.Host.Drive
import LeanLibp2p.Lib.Run
import LeanLibp2p.Quic.Endpoint

/-!
# Refused dials

The service over any run, with the events that the application took from it, and a dial at its end.
The endpoint, the service and the host admit the attempt one after the other. Only the first two keep
a record of it, and the second one does not undo what the first one did.
-/

namespace LeanLibp2p.Quic

open LeanLibp2p.Lib LeanLibp2p.Host

variable (endpoint : Endpoint)
variable {peerIdValid : Bytes → Bool} {service : Service}
variable (c : Nat)

/-- The service, and the events that `libp2p_quic_service_next_event` returned. -/
structure ServiceRun where
  service : Service
  reported : List Event := []
  deriving DecidableEq, Repr

/-- What can happen to the service: calls of the application and what ngtcp2 does on the datagrams
    and deadlines that the service gives it. -/
inductive ServiceAction where
  | dial (addr : QuicAddr) (setup : ConnSetup)
  | recvInitial (setup : ConnSetup)
  | handshakeCompleted (c : Nat)
  | connError (c : Nat) (error : ConnError)
  | closeSent (c : Nat)
  | streamEvent (c : Nat) (event : StreamEvent)
  | txDatagramReady (c : Nat)
  | connClose (c : Nat)
  | close
  | drainEndpointEvents
  | nextEvent
  | connRelease (c : Nat)

namespace ServiceRun

variable (peerIdValid : Bytes → Bool)

/-- Change the endpoint. -/
def onEndpoint (run : ServiceRun) (f : Endpoint → Endpoint) : ServiceRun :=
  { run with service := { run.service with endpoint := f run.service.endpoint } }

/-- Something happens on a connection of the endpoint. ngtcp2 is called for those only. -/
def onConn (run : ServiceRun) (c : Nat) (f : Endpoint → Endpoint) : ServiceRun :=
  if c ∈ run.service.endpoint.connections then run.onEndpoint f else run

/-- One thing happens. -/
def step (run : ServiceRun) : ServiceAction → ServiceRun
  | .dial addr setup => { run with service := (run.service.dial peerIdValid addr setup).2 }
  | .recvInitial setup => run.onEndpoint (Endpoint.recvInitial setup)
  | .handshakeCompleted c => run.onConn c (Endpoint.handshakeCompleted c)
  | .connError c error => run.onConn c fun endpoint => (endpoint.handleConnError c error).2
  | .closeSent c =>
    if (run.service.endpoint.conn c).closeRequested then
      run.onConn c fun endpoint => (endpoint.markClosed c).2
    else run
  | .streamEvent c event => run.onConn c fun endpoint => (endpoint.eventPush (.stream event) c).2
  | .txDatagramReady c => run.onConn c fun endpoint => (endpoint.eventPush .txDatagramReady c).2
  | .connClose c =>
    if c ∈ run.service.endpoint.connections then
      { run with service := (run.service.connClose c).2 }
    else run
  | .close => { run with service := run.service.close.2 }
  | .drainEndpointEvents => { run with service := run.service.drainEndpointEvents.2 }
  | .nextEvent =>
    match run.service.nextEvent with
    | (.ok event, service) => ⟨service, run.reported ++ [event]⟩
    | (.error _, _) => run
  | .connRelease c => { run with service := (run.service.connRelease c).2 }

end ServiceRun

/-- A service that was just initialized: its table has room for as many connections as the endpoint
    may have. -/
def Service.start (config : EndpointConfig) (eventCap eventCapacity : Nat) : Service where
  endpoint := { config := config, eventCap := eventCap }
  connCapacity := config.maxConnections
  eventCapacity := eventCapacity

/-- A service that some run leads to. -/
def Service.Reachable (peerIdValid : Bytes → Bool) (service : Service) : Prop :=
  ∃ config eventCap eventCapacity actions,
    (runFrom (ServiceRun.step peerIdValid) ⟨Service.start config eventCap eventCapacity, []⟩
      actions).service = service

/-- A dial left no connection behind: the counts of the endpoint are as before, and the attempts that
    it made are not among the connections and are never reported as established or closed. -/
structure CleanRefusal (peerIdValid : Bytes → Bool) (before after : Service) : Prop where
  connections : after.endpoint.connections.length = before.endpoint.connections.length
  incoming : after.endpoint.incomingCount = before.endpoint.incomingCount
  outgoing : after.endpoint.outgoingCount = before.endpoint.outgoingCount
  gone : ∀ c, before.endpoint.objects.length ≤ c → c < after.endpoint.objects.length →
    c ∉ after.endpoint.connections
  silent : ∀ c, before.endpoint.objects.length ≤ c → c < after.endpoint.objects.length →
    ∀ actions, ∀ event ∈ (runFrom (ServiceRun.step peerIdValid) ⟨after, []⟩ actions).reported,
      event.type = .connEstablished ∨ event.type = .connClosed → event.conn ≠ c

/-- The endpoint has room for the dial and nothing else is wrong with it. -/
structure Admits (peerIdValid : Bytes → Bool) (addr : QuicAddr) (setup : ConnSetup)
    (service : Service) : Prop where
  «open» : service.closed = false ∧ service.endpoint.closed = false
  client : service.endpoint.config.client = true ∧ service.endpoint.bound = true
  valid : addr.validate peerIdValid = .ok ()
  peerId : addr.hasPeerId = true ∧ addr.peerId ≠ []
  setup : setup.allocated = true ∧ setup.made = .ok ()
  connections : service.endpoint.connections.length ≠ service.endpoint.config.maxConnections
  outgoing : service.endpoint.outgoingCount ≠ service.endpoint.config.maxOutgoingConnections

/-- The table of the service has no entry left. -/
def Service.Full (service : Service) : Prop := service.conns.length = service.connCapacity

instance (service : Service) : Decidable service.Full := by
  unfold Service.Full
  infer_instance

/-- `host_quic_dial` (`libp2p_host_quic_transport.c:371-405`); `fromMultiaddr` is
    `libp2p_quic_addr_from_multiaddr`. -/
def hostQuicDial (peerIdValid : Bytes → Bool) (fromMultiaddr : Bytes → Except QuicErr QuicAddr)
    (setup : ConnSetup) (multiaddr : Bytes) (_userData : Nat) : Comp Service HostErr Nat :=
  fun service =>
    match fromMultiaddr multiaddr with
    | .error e => (.error (hostQuicErr e), service)
    | .ok addr =>
      if ¬ addr.hasPeerId then (.error .addr, service)
      else
        match service.dial peerIdValid addr setup with
        | (.error e, service) => (.error (hostQuicErr e), service)
        | (.ok c, service) => (.ok c, service)

/-- The host hands the dial of this multiaddr to the transport, which makes it one of this address. -/
structure HostAdmits (config : HostConfig Service)
    (fromMultiaddr : Bytes → Except QuicErr QuicAddr) (multiaddr : Bytes) (host : LeanLibp2p.Host)
    (addr : QuicAddr) : Prop where
  started : hostValidateStarted host = .ok ()
  nonempty : multiaddr ≠ []
  closing : host.state ≠ .closing
  dial : freeDial config host ≠ none
  parsed : fromMultiaddr multiaddr = .ok addr
  peerId : addr.hasPeerId = true

/-! ## The connections that a state knows -/

/-- The connections that the endpoint has or has an event of. -/
def Endpoint.known : List Nat :=
  endpoint.connections ++ endpoint.events.map Event.conn

/-- All connections of the endpoint, its events, the service's events and its entries are in `K`. -/
structure Service.Within (K : Nat → Prop) (service : Service) : Prop where
  endpoint : ∀ c ∈ service.endpoint.known, K c
  events : ∀ event ∈ service.events, K event.conn
  entries : ∀ entry ∈ service.conns, K entry.conn

section Known

theorem eventPush_known (type : EventType) (c : Nat) :
    (endpoint.eventPush type c).2.known ⊆ c :: endpoint.known := by
  unfold Endpoint.eventPush
  split
  · exact List.subset_cons_self _ _
  · split
    · exact List.subset_cons_self _ _
    · intro x hx
      simp only [Endpoint.known, List.map_append, List.map_cons, List.map_nil, List.mem_append,
        List.mem_cons, List.not_mem_nil, or_false] at hx ⊢
      tauto

theorem eventPush_objects (type : EventType) (c : Nat) :
    (endpoint.eventPush type c).2.objects = endpoint.objects := by
  unfold Endpoint.eventPush
  repeat' split
  all_goals rfl

/-- An event of a known connection makes no connection known. -/
theorem eventPush_known_of_mem {endpoint : Endpoint} {c : Nat} (h : c ∈ endpoint.known)
    (type : EventType) : (endpoint.eventPush type c).2.known ⊆ endpoint.known :=
  List.Subset.trans (eventPush_known endpoint type c)
    (List.cons_subset.mpr ⟨h, List.Subset.refl _⟩)

theorem update_length' (f : Conn → Conn) :
    (endpoint.update c f).objects.length = endpoint.objects.length := by
  simp [Endpoint.update]

theorem mem_dropLast_set {connections : List Nat} {index c : Nat}
    (h : c ∈ (connections.set index (connections.getLastD 0)).dropLast) : c ∈ connections := by
  rcases List.mem_or_eq_of_mem_set ((List.dropLast_sublist _).subset h) with hmem | rfl
  · exact hmem
  · cases connections with
    | nil => simp at h
    | cons first rest =>
      rw [List.getLastD_cons]
      exact List.getLastD_mem_cons

theorem retire_known : (endpoint.retire c).known ⊆ endpoint.known := by
  unfold Endpoint.retire
  split
  · intro x hx
    rcases List.mem_append.mp hx with hx | hx
    · exact List.mem_append_left _ (mem_dropLast_set hx)
    · exact List.mem_append_right _ hx
  · exact List.Subset.refl _

theorem retire_length : (endpoint.retire c).objects.length = endpoint.objects.length := by
  unfold Endpoint.retire
  split
  · exact update_length' endpoint c _
  · rfl

theorem markClosed_known {endpoint : Endpoint} {c : Nat} (h : c ∈ endpoint.known) :
    (endpoint.markClosed c).2.known ⊆ endpoint.known := by
  unfold Endpoint.markClosed
  split
  · exact List.Subset.trans (retire_known _ c)
      (@eventPush_known_of_mem (endpoint.update c _) c h _)
  · exact retire_known endpoint c

theorem markClosed_length : (endpoint.markClosed c).2.objects.length = endpoint.objects.length := by
  unfold Endpoint.markClosed
  split
  · refine (retire_length _ c).trans ?_
    rw [eventPush_objects]
    exact update_length' endpoint c _
  · exact retire_length endpoint c

/-- A connection that was refused leaves everything but its freed object. -/
theorem connNew_error {endpoint endpoint' : Endpoint} {role : Role} {type : EventType}
    {setup : ConnSetup} {e : QuicErr} (h : endpoint.connNew role type setup = (.error e, endpoint')) :
    ∃ objects, endpoint' = { endpoint with objects := objects } ∧
      endpoint.objects.length ≤ objects.length := by
  unfold Endpoint.connNew at h
  have hle : endpoint.objects.length ≤ (endpoint.objects ++ [({ role := role } : Conn)]).length := by
    rw [List.length_append]
    omega
  split at h
  · cases h
    exact ⟨endpoint.objects, rfl, Nat.le_refl _⟩
  · dsimp only at h
    split at h
    · cases h
      exact ⟨_, rfl, hle⟩
    · split at h
      · cases h
        exact ⟨_, rfl, hle⟩
      · cases h

theorem conn_new (conn : Conn) :
    Endpoint.conn { endpoint with objects := endpoint.objects ++ [conn] } endpoint.objects.length =
      conn := by
  simp [Endpoint.conn]

/-- A connection that was set up and admitted is the last of the live ones. -/
theorem connNew_ok {endpoint endpoint' : Endpoint} {role : Role} {type : EventType}
    {setup : ConnSetup} {c : Nat} (h : endpoint.connNew role type setup = (.ok c, endpoint')) :
    c = endpoint.objects.length ∧ endpoint'.objects.length = endpoint.objects.length + 1 ∧
      endpoint'.connections = endpoint.connections ++ [c] ∧
      endpoint'.known ⊆ c :: endpoint.known ∧
      setup.allocated = true ∧ setup.made = .ok () ∧
      endpoint.connections.length ≠ endpoint.config.maxConnections ∧
      (role = .client → endpoint.outgoingCount ≠ endpoint.config.maxOutgoingConnections) := by
  unfold Endpoint.connNew at h
  split at h
  · cases h
  · rename_i hallocated
    dsimp only at h
    split at h
    · cases h
    · rename_i hmade
      split at h
      · cases h
      · rename_i added hadd
        simp only [Endpoint.addConn, conn_new] at hadd
        split at hadd
        · cases hadd
        · rename_i hroom
          split at hadd
          · cases hadd
          · rename_i hclient
            split at hadd
            · cases hadd
            · obtain ⟨rfl, rfl⟩ := by simpa using h
              have hadded := (Except.ok.inj hadd).symm
              have hpush := eventPush_known added type endpoint.objects.length
              have hconnections : ∀ (pushed : Endpoint) (c : Nat),
                  (pushed.eventPush type c).2.connections = pushed.connections := by
                intro pushed c
                unfold Endpoint.eventPush
                repeat' split
                all_goals rfl
              refine ⟨rfl, ?_, ?_, ?_, by simpa using hallocated, hmade, hroom, ?_⟩
              · rw [eventPush_objects, hadded]
                simp [Endpoint.update]
              · rw [hconnections, hadded]
              · refine List.Subset.trans hpush (List.cons_subset.mpr ⟨List.mem_cons_self, ?_⟩)
                rw [hadded]
                intro x hx
                simp only [Endpoint.known, Endpoint.update, List.mem_append, List.mem_cons,
                  List.not_mem_nil, or_false] at hx ⊢
                tauto
              · intro hrole hfull
                exact hclient ⟨hrole, hfull⟩

end Known

section Within

variable {K : Nat → Prop} {service : Service} {peerIdValid : Bytes → Bool}

theorem Service.Within.setEndpoint (h : service.Within K) {endpoint : Endpoint}
    (hknown : ∀ c ∈ endpoint.known, K c) : Service.Within K { service with endpoint := endpoint } :=
  ⟨hknown, h.events, h.entries⟩

theorem Service.Within.eventPush (h : service.Within K) (type : EventType) {c : Nat} (hc : K c) :
    (service.eventPush type c).2.Within K := by
  unfold Service.eventPush
  split
  · exact h
  · split
    · exact h
    · refine ⟨h.endpoint, ?_, h.entries⟩
      intro event hevent
      rcases List.mem_append.mp hevent with hevent | hevent
      · exact h.events event hevent
      · rw [List.mem_singleton.mp hevent]
        exact hc

theorem Service.Within.setEntry (h : service.Within K) (c : Nat) {f : ConnEntry → ConnEntry}
    (hf : ∀ entry, (f entry).conn = entry.conn) : (service.setEntry c f).Within K := by
  refine ⟨h.endpoint, h.events, ?_⟩
  intro entry hentry
  obtain ⟨old, hold, rfl⟩ := List.mem_map.mp hentry
  split
  · rw [hf]
    exact h.entries old hold
  · exact h.entries old hold

theorem Service.Within.trackConn (h : service.Within K) {c : Nat} (hc : K c) (incoming : Bool) :
    (service.trackConn c incoming).2.Within K := by
  unfold Service.trackConn
  split
  · exact h.setEntry c fun _ => rfl
  · split
    · exact h
    · refine ⟨h.endpoint, h.events, ?_⟩
      intro entry hentry
      rcases List.mem_append.mp hentry with hentry | hentry
      · exact h.entries entry hentry
      · rw [List.mem_singleton.mp hentry]
        exact hc

theorem Service.Within.forgetConn (h : service.Within K) (c : Nat) :
    (service.forgetConn c).Within K := by
  unfold Service.forgetConn
  split
  · rename_i index last _ hlast
    refine ⟨h.endpoint, h.events, ?_⟩
    intro entry hentry
    rcases List.mem_or_eq_of_mem_set ((List.dropLast_sublist _).subset hentry) with hmem | rfl
    · exact h.entries entry hmem
    · exact h.entries entry (List.mem_of_getLast? hlast)
  · exact h

theorem Service.Within.translateEvent (h : service.Within K) {event : Event} (hc : K event.conn) :
    (service.translateEvent event).2.Within K := by
  unfold Service.translateEvent
  split
  · have htrack := h.trackConn hc true
    split
    · rename_i heq
      rwa [heq] at htrack
    · rename_i heq
      rw [heq] at htrack
      exact htrack.eventPush _ hc
  · have hmark : (service.markConnEstablished event.conn).2.Within K := by
      have htrack := h.trackConn hc false
      unfold Service.markConnEstablished
      split
      · rename_i heq
        rwa [heq] at htrack
      · rename_i heq
        rw [heq] at htrack
        exact htrack.setEntry _ fun _ => rfl
    split
    · rename_i heq
      rwa [heq] at hmark
    · rename_i heq
      rw [heq] at hmark
      exact hmark.eventPush _ hc
  · have hpush := (h.setEntry event.conn (f := fun entry => { entry with closed := true })
      fun _ => rfl).eventPush .connClosed hc
    exact hpush.forgetConn event.conn
  · exact h.eventPush _ hc
  · exact ⟨h.endpoint, h.events, h.entries⟩

theorem Service.Within.drainLoop {events : List Event} (hevents : ∀ event ∈ events, K event.conn) :
    ∀ {service : Service}, service.Within K → (Service.drainLoop events service).2.Within K := by
  induction events with
  | nil => exact fun h => h
  | cons event events ih =>
    intro service h
    have hrest : ∀ event ∈ events, K event.conn :=
      fun other hother => hevents other (List.mem_cons_of_mem _ hother)
    have hnext : Service.Within K { service with
        endpoint := { service.endpoint with events := events } } := by
      refine h.setEndpoint ?_
      intro c hc
      rcases List.mem_append.mp hc with hc | hc
      · exact h.endpoint c (List.mem_append_left _ hc)
      · obtain ⟨other, hother, rfl⟩ := List.mem_map.mp hc
        exact hrest other hother
    have htranslated := hnext.translateEvent (hevents event List.mem_cons_self)
    unfold Service.drainLoop
    split
    · rename_i heq
      rwa [heq] at htranslated
    · rename_i heq
      rw [heq] at htranslated
      exact ih hrest htranslated

theorem Service.Within.drainEndpointEvents (h : service.Within K) :
    service.drainEndpointEvents.2.Within K := by
  unfold Service.drainEndpointEvents
  split
  · exact h
  · refine Service.Within.drainLoop (fun event hevent => ?_) h
    exact h.endpoint _ (List.mem_append_right _ (List.mem_map_of_mem hevent))

theorem trackConn_endpoint (incoming : Bool) (service : Service) :
    (service.trackConn c incoming).2.endpoint = service.endpoint := by
  unfold Service.trackConn
  repeat' split
  all_goals rfl

theorem eventPush_endpoint (service : Service) (type : EventType) (c : Nat) :
    (service.eventPush type c).2.endpoint = service.endpoint := by
  unfold Service.eventPush
  repeat' split
  all_goals rfl

theorem translateEvent_endpoint (event : Event) (service : Service) :
    (service.translateEvent event).2.endpoint = service.endpoint := by
  have htrack := fun incoming => trackConn_endpoint event.conn incoming service
  unfold Service.translateEvent
  split
  · split
    · rename_i heq
      exact (congrArg (fun result => result.2.endpoint) heq).symm.trans (htrack true)
    · rename_i heq
      rw [eventPush_endpoint]
      exact (congrArg (fun result => result.2.endpoint) heq).symm.trans (htrack true)
  · have hmark : (service.markConnEstablished event.conn).2.endpoint = service.endpoint := by
      unfold Service.markConnEstablished
      split
      · rename_i heq
        exact (congrArg (fun result => result.2.endpoint) heq).symm.trans (htrack false)
      · rename_i heq
        exact (congrArg (fun result => result.2.endpoint) heq).symm.trans (htrack false)
    split
    · rename_i heq
      exact (congrArg (fun result => result.2.endpoint) heq).symm.trans hmark
    · rename_i heq
      rw [eventPush_endpoint]
      exact (congrArg (fun result => result.2.endpoint) heq).symm.trans hmark
  · have hforget : ∀ service : Service, (service.forgetConn event.conn).endpoint = service.endpoint := by
      intro service
      unfold Service.forgetConn
      split <;> rfl
    exact (hforget _).trans (eventPush_endpoint _ _ _)
  · exact eventPush_endpoint _ _ _
  · rfl

theorem drainLoop_objects (events : List Event) : ∀ service : Service,
    (Service.drainLoop events service).2.endpoint.objects = service.endpoint.objects := by
  induction events with
  | nil => exact fun _ => rfl
  | cons event events ih =>
    intro service
    have htranslated := congrArg Endpoint.objects (translateEvent_endpoint event
      { service with endpoint := { service.endpoint with events := events } })
    unfold Service.drainLoop
    split
    · rename_i heq
      exact (congrArg (fun result => result.2.endpoint.objects) heq).symm.trans htranslated
    · rename_i heq
      rw [ih]
      exact (congrArg (fun result => result.2.endpoint.objects) heq).symm.trans htranslated

theorem handshakeCompleted_within {endpoint : Endpoint} {c : Nat} (hc : c ∈ endpoint.connections) :
    (endpoint.handshakeCompleted c).known ⊆ endpoint.known ∧
      (endpoint.handshakeCompleted c).objects.length = endpoint.objects.length := by
  unfold Endpoint.handshakeCompleted
  refine ⟨@eventPush_known_of_mem (endpoint.update c _) c (List.mem_append_left _ hc) _, ?_⟩
  rw [eventPush_objects]
  exact update_length' endpoint c _

theorem handleConnError_within {endpoint : Endpoint} {c : Nat} (hc : c ∈ endpoint.connections)
    (error : ConnError) :
    (endpoint.handleConnError c error).2.known ⊆ endpoint.known ∧
      (endpoint.handleConnError c error).2.objects.length = endpoint.objects.length := by
  have hknown : c ∈ endpoint.known := List.mem_append_left _ hc
  cases error with
  | endpoint e => exact ⟨List.Subset.refl _, rfl⟩
  | finished => exact ⟨markClosed_known hknown, markClosed_length endpoint c⟩
  | violation =>
    refine ⟨@eventPush_known_of_mem (endpoint.update c _) c hknown _, ?_⟩
    unfold Endpoint.handleConnError
    rw [eventPush_objects]
    exact update_length' endpoint c _

theorem connClose_within {endpoint : Endpoint} {c : Nat} (hc : c ∈ endpoint.connections) :
    (endpoint.connClose c).2.known ⊆ endpoint.known ∧
      (endpoint.connClose c).2.objects.length = endpoint.objects.length := by
  unfold Endpoint.connClose
  split
  · exact ⟨List.Subset.refl _, rfl⟩
  · refine ⟨@eventPush_known_of_mem (endpoint.update c _) c (List.mem_append_left _ hc) _, ?_⟩
    rw [eventPush_objects]
    exact update_length' endpoint c _

/-- Marking connections as closing makes none known. -/
theorem closing_within (connections : List Nat) (endpoint : Endpoint) :
    (connections.foldl (fun endpoint c => endpoint.update c fun conn =>
        { conn with closeRequested := true, state := .closing }) endpoint).known = endpoint.known ∧
      (connections.foldl (fun endpoint c => endpoint.update c fun conn =>
        { conn with closeRequested := true, state := .closing }) endpoint).objects.length =
          endpoint.objects.length := by
  induction connections generalizing endpoint with
  | nil => exact ⟨rfl, rfl⟩
  | cons c connections ih =>
    obtain ⟨hknown, hlen⟩ := ih (endpoint.update c fun conn =>
      { conn with closeRequested := true, state := .closing })
    exact ⟨hknown, hlen.trans (update_length' endpoint c _)⟩

theorem close_within :
    endpoint.close.known = endpoint.known ∧
      endpoint.close.objects.length = endpoint.objects.length := by
  unfold Endpoint.close
  split
  · exact ⟨rfl, rfl⟩
  · exact closing_within endpoint.connections endpoint

theorem releaseRetired_within :
    (endpoint.releaseRetired c).2.known = endpoint.known ∧
      (endpoint.releaseRetired c).2.objects.length = endpoint.objects.length := by
  unfold Endpoint.releaseRetired
  repeat' split
  all_goals exact ⟨rfl, rfl⟩

theorem dial_error {endpoint endpoint' : Endpoint} {addr : QuicAddr} {setup : ConnSetup}
    {e : QuicErr} (h : endpoint.dial peerIdValid addr setup = (.error e, endpoint')) :
    ∃ objects, endpoint' = { endpoint with objects := objects } ∧
      endpoint.objects.length ≤ objects.length := by
  unfold Endpoint.dial at h
  split at h
  · cases h
    exact ⟨endpoint.objects, rfl, Nat.le_refl _⟩
  · exact connNew_error h

theorem dial_ok {endpoint endpoint' : Endpoint} {addr : QuicAddr} {setup : ConnSetup} {c : Nat}
    (h : endpoint.dial peerIdValid addr setup = (.ok c, endpoint')) :
    endpoint.checkDial peerIdValid addr = .ok () ∧
      endpoint.connNew .client .txDatagramReady setup = (.ok c, endpoint') := by
  unfold Endpoint.dial at h
  split at h
  · cases h
  · rename_i hcheck
    exact ⟨hcheck, h⟩

/-- A new connection is known under its own number; one that was refused is not known at all. -/
theorem connNew_within (role : Role) (type : EventType) (setup : ConnSetup) :
    endpoint.objects.length ≤ (endpoint.connNew role type setup).2.objects.length ∧
      ∀ c ∈ (endpoint.connNew role type setup).2.known, c ∈ endpoint.known ∨
        endpoint.objects.length ≤ c ∧ c < (endpoint.connNew role type setup).2.objects.length := by
  rcases hnew : endpoint.connNew role type setup with ⟨e | c, endpoint'⟩
  · obtain ⟨objects, rfl, hle⟩ := connNew_error hnew
    exact ⟨hle, fun _ hc => .inl hc⟩
  · obtain ⟨rfl, hlen, -, hknown, -⟩ := connNew_ok hnew
    refine ⟨?_, ?_⟩
    · show endpoint.objects.length ≤ endpoint'.objects.length
      omega
    · intro x hx
      rcases List.mem_cons.mp (hknown hx) with rfl | hx
      · right
        show _ ∧ _ < endpoint'.objects.length
        omega
      · exact .inl hx

end Within

namespace ServiceRun

variable {K : Nat → Prop} {run : ServiceRun} {peerIdValid : Bytes → Bool}

/-- The same for the service of a run and what it reported. -/
structure Within (K : Nat → Prop) (run : ServiceRun) : Prop where
  service : run.service.Within K
  reported : ∀ event ∈ run.reported, K event.conn

/-- How many connections were allocated so far. -/
def allocs (run : ServiceRun) : Nat := run.service.endpoint.objects.length

/-- A step makes only the connections known that it allocates. -/
def Spreads (run run' : ServiceRun) : Prop :=
  run.allocs ≤ run'.allocs ∧ ∀ K : Nat → Prop, run.Within K →
    run'.Within fun c => K c ∨ run.allocs ≤ c ∧ c < run'.allocs

theorem Within.mono (h : run.Within K) {K' : Nat → Prop} (hK : ∀ c, K c → K' c) : run.Within K' :=
  ⟨⟨fun c hc => hK c (h.service.endpoint c hc), fun e he => hK _ (h.service.events e he),
    fun e he => hK _ (h.service.entries e he)⟩, fun e he => hK _ (h.reported e he)⟩

theorem Spreads.refl (run : ServiceRun) : Spreads run run :=
  ⟨Nat.le_refl _, fun _ h => h.mono fun _ => .inl⟩

theorem spreads_endpoint {endpoint : Endpoint}
    (hlen : run.service.endpoint.objects.length ≤ endpoint.objects.length)
    (hknown : ∀ c ∈ endpoint.known, c ∈ run.service.endpoint.known ∨
      run.service.endpoint.objects.length ≤ c ∧ c < endpoint.objects.length) :
    Spreads run { run with service := { run.service with endpoint := endpoint } } := by
  refine ⟨hlen, fun K h => ⟨⟨?_, fun e he => .inl (h.service.events e he),
    fun e he => .inl (h.service.entries e he)⟩, fun e he => .inl (h.reported e he)⟩⟩
  intro c hc
  exact (hknown c hc).imp_left (h.service.endpoint c)

theorem spreads_onConn {f : Endpoint → Endpoint} (hf : c ∈ run.service.endpoint.connections →
      (f run.service.endpoint).known ⊆ run.service.endpoint.known ∧
        (f run.service.endpoint).objects.length = run.service.endpoint.objects.length) :
    Spreads run (run.onConn c f) := by
  unfold onConn
  split
  · rename_i hc
    obtain ⟨hknown, hlen⟩ := hf hc
    exact spreads_endpoint hlen.symm.le fun x hx => .inl (hknown hx)
  · exact .refl run

/-- A step within the service that allocates nothing. -/
theorem spreads_service (hlen : service.endpoint.objects.length = run.service.endpoint.objects.length)
    (hwithin : ∀ K : Nat → Prop, run.service.Within K → service.Within K) :
    Spreads run { run with service := service } :=
  ⟨hlen.symm.le, fun K h => (show Within K { run with service := service } from
    ⟨hwithin K h.service, h.reported⟩).mono fun _ => .inl⟩

theorem spreads_dial (addr : QuicAddr) (setup : ConnSetup) :
    Spreads run (run.step peerIdValid (.dial addr setup)) := by
  simp only [step, Service.dial]
  split
  · exact .refl run
  · rcases hdial : run.service.endpoint.dial peerIdValid addr setup with ⟨e | c, endpoint⟩
    · obtain ⟨objects, rfl, hle⟩ := dial_error hdial
      exact spreads_endpoint hle fun c hc => .inl hc
    · obtain ⟨rfl, hlen, -, hknown, -⟩ := connNew_ok (dial_ok hdial).2
      have hnew : run.service.endpoint.objects.length ≤ run.service.endpoint.objects.length ∧
          run.service.endpoint.objects.length < endpoint.objects.length := by omega
      have hspreads := @spreads_endpoint run endpoint (by omega) fun c hc => by
        rcases List.mem_cons.mp (hknown hc) with rfl | hc
        · exact .inr hnew
        · exact .inl hc
      have hend := trackConn_endpoint run.service.endpoint.objects.length false
        { run.service with endpoint := endpoint }
      rcases htrack : ({ run.service with endpoint := endpoint } : Service).trackConn
        run.service.endpoint.objects.length false with ⟨result, service⟩
      rw [htrack] at hend
      have hlen' : run.allocs ≤ service.endpoint.objects.length := by
        rw [hend]
        exact hspreads.1
      have hwithin : ∀ K : Nat → Prop, run.Within K →
          service.Within fun c => K c ∨ run.allocs ≤ c ∧ c < service.endpoint.objects.length := by
        intro K h
        have htracked := (hspreads.2 K h).service.trackConn (.inr hnew) false
        rw [htrack] at htracked
        rw [hend]
        exact htracked
      have hreported : ∀ K : Nat → Prop, run.Within K → ∀ event ∈ run.reported,
          K event.conn ∨ run.allocs ≤ event.conn ∧ event.conn < service.endpoint.objects.length :=
        fun K h event hevent => .inl (h.reported event hevent)
      cases result with
      | error e =>
        simp only [htrack]
        exact ⟨hlen', fun K h => ⟨hwithin K h, hreported K h⟩⟩
      | ok u =>
        simp only [htrack]
        exact ⟨hlen', fun K h => ⟨⟨(hwithin K h).endpoint, (hwithin K h).events,
          (hwithin K h).entries⟩, hreported K h⟩⟩

/-- Every step makes only the connections known that it allocates. -/
theorem spreads_step (run : ServiceRun) (action : ServiceAction) :
    Spreads run (run.step peerIdValid action) := by
  cases action with
  | dial addr setup => exact spreads_dial addr setup
  | recvInitial setup =>
    have hsame : ∀ c ∈ run.service.endpoint.known, c ∈ run.service.endpoint.known ∨
        run.service.endpoint.objects.length ≤ c ∧ c < run.service.endpoint.objects.length :=
      fun c hc => .inl hc
    simp only [step, onEndpoint, Endpoint.recvInitial]
    split
    · exact spreads_endpoint (Nat.le_refl _) hsame
    · split
      · obtain ⟨hlen, hknown⟩ := connNew_within run.service.endpoint .server .connIncoming setup
        exact spreads_endpoint hlen hknown
      · exact spreads_endpoint (Nat.le_refl _) hsame
  | handshakeCompleted c => exact spreads_onConn c handshakeCompleted_within
  | connError c error => exact spreads_onConn c fun hc => handleConnError_within hc error
  | closeSent c =>
    simp only [step]
    split
    · exact spreads_onConn c fun hc =>
        ⟨markClosed_known (List.mem_append_left _ hc), markClosed_length _ c⟩
    · exact .refl run
  | streamEvent c event =>
    exact spreads_onConn c fun hc => ⟨eventPush_known_of_mem (List.mem_append_left _ hc) _,
      congrArg List.length (eventPush_objects _ _ _)⟩
  | txDatagramReady c =>
    exact spreads_onConn c fun hc => ⟨eventPush_known_of_mem (List.mem_append_left _ hc) _,
      congrArg List.length (eventPush_objects _ _ _)⟩
  | connClose c =>
    simp only [step]
    split
    · rename_i hc
      obtain ⟨hknown, hlen⟩ := connClose_within hc
      unfold Service.connClose
      split
      · exact .refl run
      · split
        all_goals
          rename_i heq
          rw [heq] at hknown hlen
          refine spreads_service hlen fun K h => ⟨fun c hc => ?_, h.events, h.entries⟩
          exact h.endpoint c (hknown hc)
    · exact .refl run
  | close =>
    obtain ⟨hknown, hlen⟩ := close_within run.service.endpoint
    simp only [step, Service.close]
    split
    · exact .refl run
    · split
      · exact .refl run
      · exact spreads_service hlen fun K h =>
          ⟨fun c hc => h.endpoint c (hknown ▸ hc), h.events, h.entries⟩
  | drainEndpointEvents =>
    refine spreads_service ?_ fun K h => h.drainEndpointEvents
    unfold Service.drainEndpointEvents
    split
    · rfl
    · rw [drainLoop_objects]
  | nextEvent =>
    simp only [step, Service.nextEvent]
    split
    · rename_i event service heq
      split at heq
      · cases heq
      · split at heq
        · cases heq
        · rename_i event' events hevents
          obtain ⟨rfl, rfl⟩ := by simpa using heq
          refine ⟨Nat.le_refl _, fun K h => ?_⟩
          have htaken : Within K ⟨{ run.service with events := events }, run.reported ++ [event']⟩ := by
            refine ⟨⟨h.service.endpoint, ?_, h.service.entries⟩, ?_⟩
            · intro other hother
              exact h.service.events other (hevents ▸ List.mem_cons_of_mem _ hother)
            · intro other hother
              rcases List.mem_append.mp hother with hother | hother
              · exact h.reported other hother
              · rw [List.mem_singleton.mp hother]
                exact h.service.events _ (hevents ▸ List.mem_cons_self)
          exact htaken.mono fun _ => .inl
    · exact .refl run
  | connRelease c =>
    obtain ⟨hknown, hlen⟩ := releaseRetired_within run.service.endpoint c
    simp only [step, Service.connRelease]
    split
    · exact .refl run
    · split
      · exact .refl run
      · exact spreads_service hlen fun K h =>
          ⟨fun c hc => h.endpoint c (hknown ▸ hc), h.events, h.entries⟩

/-! ## The dial -/

/-- Every state of a run knows only connections that were allocated. -/
theorem reachable_within (h : service.Reachable peerIdValid) :
    service.Within fun c => c < service.endpoint.objects.length := by
  obtain ⟨config, eventCap, eventCapacity, actions, rfl⟩ := h
  have hrun := @runFrom_keeps _ _ (step peerIdValid) (fun run => run.Within fun c =>
    c < run.allocs) ⟨Service.start config eventCap eventCapacity, []⟩ actions
    ⟨⟨by simp [Service.start, Endpoint.known], by simp [Service.start], by simp [Service.start]⟩,
      by simp⟩ ?_
  · exact hrun.service
  · intro run action h
    obtain ⟨hle, hspreads⟩ := @spreads_step peerIdValid run action
    refine (hspreads _ h).mono fun c hc => ?_
    rcases hc with hc | ⟨-, hc⟩
    · exact Nat.lt_of_lt_of_le hc hle
    · exact hc

/-- An attempt that is not known is never reported. -/
theorem silent {c : Nat} (hc : c < service.endpoint.objects.length)
    (hwithin : service.Within fun other => other ≠ c) (actions : List ServiceAction) :
    ∀ event ∈ (runFrom (step peerIdValid) ⟨service, []⟩ actions).reported, event.conn ≠ c := by
  have hrun := @runFrom_keeps _ _ (step peerIdValid) (fun run => c < run.allocs ∧
    run.Within fun other => other ≠ c) ⟨service, []⟩ actions
    ⟨hc, hwithin, by simp⟩ ?_
  · exact hrun.2.reported
  · rintro run action ⟨hlt, h⟩
    obtain ⟨hle, hspreads⟩ := @spreads_step peerIdValid run action
    refine ⟨Nat.lt_of_lt_of_le hlt hle, (hspreads _ h).mono fun other hother => ?_⟩
    rcases hother with hne | ⟨hge, -⟩
    · exact hne
    · omega

end ServiceRun

theorem checkDial_ok {addr : QuicAddr} {endpoint : Endpoint} :
    endpoint.checkDial peerIdValid addr = .ok () ↔ endpoint.closed = false ∧
      endpoint.config.client = true ∧ endpoint.bound = true ∧
      addr.validate peerIdValid = .ok () ∧ addr.hasPeerId = true ∧ addr.peerId ≠ [] := by
  simp only [Endpoint.checkDial, Endpoint.validate, bind, Except.bind, pure, Except.pure, throw,
    throwThe, MonadExceptOf.throw]
  cases endpoint.closed <;> cases endpoint.config.client <;> cases endpoint.bound <;>
    cases addr.validate peerIdValid <;> cases addr.hasPeerId <;> cases addr.peerId <;> simp

/-- An admitted dial gets the next connection. -/
theorem dial_of_admits {addr : QuicAddr} {setup : ConnSetup}
    {service : Service} (h : Admits peerIdValid addr setup service) :
    ∃ endpoint, service.endpoint.dial peerIdValid addr setup =
      (.ok service.endpoint.objects.length, endpoint) := by
  have hcheck : service.endpoint.checkDial peerIdValid addr = .ok () :=
    checkDial_ok.mpr ⟨h.open.2, h.client.1, h.client.2, h.valid, h.peerId.1, h.peerId.2⟩
  unfold Endpoint.dial Endpoint.clientNew Endpoint.connNew
  simp only [hcheck, h.setup.1, h.setup.2, Endpoint.addConn, conn_new, not_true_eq_false, if_false,
    if_neg h.connections, h.outgoing, and_false, reduceCtorEq, false_and]
  exact ⟨_, rfl⟩

theorem admits_of_dial {addr : QuicAddr} {setup : ConnSetup}
    {service : Service} {c : Nat} {endpoint : Endpoint} (hopen : service.closed = false)
    (h : service.endpoint.dial peerIdValid addr setup = (.ok c, endpoint)) :
    Admits peerIdValid addr setup service := by
  obtain ⟨hcheck, hnew⟩ := dial_ok h
  obtain ⟨hclosed, hclient, hbound, hvalid, hpeer⟩ := checkDial_ok.mp hcheck
  obtain ⟨-, -, -, -, hallocated, hmade, hroom, houtgoing⟩ := connNew_ok hnew
  exact ⟨⟨hopen, hclosed⟩, ⟨hclient, hbound⟩, hvalid, hpeer, ⟨hallocated, hmade⟩, hroom,
    houtgoing rfl⟩

/-- What a dial of the service comes to. -/
theorem serviceDial_cases (h : service.Reachable peerIdValid) (addr : QuicAddr) (setup : ConnSetup) :
    (Admits peerIdValid addr setup service ∧ service.Full ∧
        (∃ e, (service.dial peerIdValid addr setup).1 = .error e) ∧
        (service.dial peerIdValid addr setup).2.endpoint.connections.length =
          service.endpoint.connections.length + 1) ∨
      (Admits peerIdValid addr setup service ∧ ¬ service.Full ∧
        ∃ c, (service.dial peerIdValid addr setup).1 = .ok c) ∨
      (¬ Admits peerIdValid addr setup service ∧
        (∃ e, (service.dial peerIdValid addr setup).1 = .error e) ∧
        ∃ objects, (service.dial peerIdValid addr setup).2 =
          { service with endpoint := { service.endpoint with objects := objects } } ∧
          service.endpoint.objects.length ≤ objects.length) := by
  by_cases hadmits : Admits peerIdValid addr setup service
  · obtain ⟨endpoint, hdial⟩ := dial_of_admits hadmits
    have hvalid : service.validate = .ok () := by simp [Service.validate, hadmits.open.1]
    have hconnections := (connNew_ok (dial_ok hdial).2).2.2.1
    -- the new connection has no entry yet, for entries are of connections that were allocated
    have huntracked : ({ service with endpoint := endpoint } : Service).tracks
        service.endpoint.objects.length = false := by
      refine List.any_eq_false.mpr fun entry hentry heq => ?_
      have hlt := (ServiceRun.reachable_within h).entries entry hentry
      have hconn := of_decide_eq_true heq
      omega
    simp only [Service.dial, hvalid, hdial, Service.trackConn, huntracked, if_false,
      Bool.false_eq_true]
    by_cases hfull : service.Full
    · left
      have hlen : service.conns.length = service.connCapacity := hfull
      simp only [hlen, if_true, hconnections, List.length_append, List.length_singleton]
      exact ⟨hadmits, hfull, ⟨_, rfl⟩, trivial⟩
    · right
      left
      have hlen : service.conns.length ≠ service.connCapacity := hfull
      simp only [if_neg hlen]
      exact ⟨hadmits, hfull, _, rfl⟩
  · right
    right
    refine ⟨hadmits, ?_⟩
    unfold Service.dial
    by_cases hclosed : service.closed = true
    · have hvalid : service.validate = .error .closed := by simp [Service.validate, hclosed]
      simp only [hvalid]
      exact ⟨⟨_, rfl⟩, service.endpoint.objects, rfl, Nat.le_refl _⟩
    · have hvalid : service.validate = .ok () := by simp [Service.validate, hclosed]
      simp only [hvalid]
      rcases hdial : service.endpoint.dial peerIdValid addr setup with ⟨e | c, endpoint⟩
      · obtain ⟨objects, rfl, hle⟩ := dial_error hdial
        exact ⟨⟨_, rfl⟩, objects, rfl, hle⟩
      · exact absurd (admits_of_dial (by simpa using hclosed) hdial) hadmits

/-- A refusal of the endpoint leaves nothing behind. -/
theorem cleanRefusal_of_refused (h : service.Reachable peerIdValid) {objects : List Conn} :
    CleanRefusal peerIdValid service
      { service with endpoint := { service.endpoint with objects := objects } } := by
  have hbefore := ServiceRun.reachable_within h
  have hknown : ∀ c, service.endpoint.objects.length ≤ c →
      Service.Within (fun other => other ≠ c)
        { service with endpoint := { service.endpoint with objects := objects } } := by
    intro c hc
    refine ⟨fun other hother => ?_, fun event hevent => ?_, fun entry hentry => ?_⟩
    · have hlt := hbefore.endpoint other hother
      omega
    · have hlt := hbefore.events event hevent
      omega
    · have hlt := hbefore.entries entry hentry
      omega
  refine ⟨rfl, rfl, rfl, ?_, ?_⟩
  · intro c hc _ hmem
    exact (hknown c hc).endpoint c (List.mem_append_left _ hmem) rfl
  · intro c hc hlt actions event hevent _
    exact ServiceRun.silent hlt (hknown c hc) actions event hevent

theorem cleanRefusal_refl (h : service.Reachable peerIdValid) : CleanRefusal peerIdValid service service :=
  cleanRefusal_of_refused h

/-- A refused dial of the service is clean just where the endpoint does not admit what the table has
    no entry for. -/
theorem serviceDial_clean (h : service.Reachable peerIdValid) (addr : QuicAddr) (setup : ConnSetup) :
    ((∃ e, (service.dial peerIdValid addr setup).1 = .error e) →
        CleanRefusal peerIdValid service (service.dial peerIdValid addr setup).2) ↔
      ¬ (Admits peerIdValid addr setup service ∧ service.Full) := by
  rcases serviceDial_cases h addr setup with
    ⟨hadmits, hfull, herror, hlen⟩ | ⟨hadmits, hroom, c, hok⟩ | ⟨hrefused, -, objects, hafter, -⟩
  · refine iff_of_false (fun hclean => ?_) (not_not.mpr ⟨hadmits, hfull⟩)
    have hsame := (hclean herror).connections
    omega
  · refine iff_of_true ?_ fun hboth => hroom hboth.2
    rintro ⟨e, herror⟩
    rw [hok] at herror
    cases herror
  · refine iff_of_true (fun _ => ?_) fun hboth => hrefused hboth.1
    rw [hafter]
    exact cleanRefusal_of_refused h

/-! ## The host -/

/-- A host over the QUIC transport, as far as its dial goes. -/
def quicHost (config : HostConfig Service) (peerIdValid : Bytes → Bool)
    (fromMultiaddr : Bytes → Except QuicErr QuicAddr) (setup : ConnSetup) : HostConfig Service :=
  { config with
    transport := { config.transport with dial := hostQuicDial peerIdValid fromMultiaddr setup } }

section

variable {config : HostConfig Service} {peerIdValid : Bytes → Bool}
  {fromMultiaddr : Bytes → Except QuicErr QuicAddr} {setup : ConnSetup}

/-- What `host_quic_dial` does: the dial of the service, where the multiaddr is one of a peer. -/
theorem hostQuicDial_cases (multiaddr : Bytes) (userData : Nat) (service : Service) :
    (∃ addr, fromMultiaddr multiaddr = .ok addr ∧ addr.hasPeerId = true ∧
        (hostQuicDial peerIdValid fromMultiaddr setup multiaddr userData service).2 =
          (service.dial peerIdValid addr setup).2 ∧
        ((∃ e, (hostQuicDial peerIdValid fromMultiaddr setup multiaddr userData service).1 =
          .error e) ↔ ∃ e, (service.dial peerIdValid addr setup).1 = .error e)) ∨
      ((∀ addr, fromMultiaddr multiaddr = .ok addr → addr.hasPeerId = false) ∧
        (hostQuicDial peerIdValid fromMultiaddr setup multiaddr userData service).2 = service) := by
  unfold hostQuicDial
  cases hparse : fromMultiaddr multiaddr with
  | error e => exact .inr ⟨by simp, rfl⟩
  | ok addr =>
    cases hpeer : addr.hasPeerId with
    | false =>
      right
      simp only [hpeer, Bool.false_eq_true, not_false_eq_true, if_true]
      refine ⟨fun other heq => ?_, trivial⟩
      rw [← Except.ok.inj heq, hpeer]
    | true =>
      left
      refine ⟨addr, rfl, hpeer, ?_⟩
      simp only [hpeer, not_true_eq_false, if_false]
      rcases service.dial peerIdValid addr setup with ⟨e | c, service'⟩
      · exact ⟨rfl, ⟨fun _ => ⟨e, rfl⟩, fun _ => ⟨_, rfl⟩⟩⟩
      · refine ⟨rfl, ?_⟩
        constructor <;> rintro ⟨_, ⟨⟩⟩

/-- A dial of the host is refused by the host, with the transport untouched, or is one of the
    transport. -/
theorem hostDial_cases (multiaddr : Bytes) (userData : Nat) (w : World Service) :
    (hostValidateStarted w.host = .ok () ∧ multiaddr ≠ [] ∧ w.host.state ≠ .closing ∧
        freeDial config w.host ≠ none ∧
        (hostDial config multiaddr userData w).2.env =
          (config.transport.dial multiaddr userData w.env).2 ∧
        ((∃ e, (hostDial config multiaddr userData w).1 = .error e) ↔
          ∃ e, (config.transport.dial multiaddr userData w.env).1 = .error e)) ∨
      (¬ (hostValidateStarted w.host = .ok () ∧ multiaddr ≠ [] ∧ w.host.state ≠ .closing ∧
        freeDial config w.host ≠ none) ∧
        (hostDial config multiaddr userData w).2.env = w.env) := by
  unfold hostDial
  rw [Comp.read_id_bind]
  cases hstarted : hostValidateStarted w.host with
  | error e =>
    right
    rw [Comp.bind_of_error (show Comp.ofResult (Except.error e) w = (.error e, w) from rfl)]
    exact ⟨by simp, rfl⟩
  | ok u =>
    rw [Comp.bind_of_ok (show Comp.ofResult (Except.ok u) w = (.ok u, w) from rfl)]
    by_cases hempty : multiaddr = []
    · right
      rw [if_pos hempty]
      exact ⟨fun h => h.2.1 hempty, rfl⟩
    · rw [if_neg hempty]
      by_cases hclosing : w.host.state = .closing
      · right
        rw [if_pos hclosing]
        exact ⟨fun h => h.2.2.1 hclosing, rfl⟩
      · rw [if_neg hclosing]
        cases hfree : freeDial config w.host with
        | none => exact .inr ⟨by simp, rfl⟩
        | some d =>
          left
          refine ⟨rfl, hempty, hclosing, by simp, ?_⟩
          rcases hdial : config.transport.dial multiaddr userData w.env with ⟨e | c, env⟩
          · simp only [Comp.bind_apply, modifyHost, Comp.update_apply, Comp.result, onTransport,
              Comp.zoom, hdial, Comp.fail_apply]
            exact ⟨trivial, trivial⟩
          · simp only [Comp.bind_apply, modifyHost, Comp.update_apply, Comp.result, onTransport,
              Comp.zoom, hdial, note, Comp.pure_apply]
            refine ⟨trivial, ?_⟩
            constructor <;> rintro ⟨_, ⟨⟩⟩

/-- The same for the dial of a host over the QUIC transport. -/
theorem hostDial_clean (multiaddr : Bytes) (userData : Nat) (w : World Service)
    (h : w.env.Reachable peerIdValid) :
    ((∃ e, (hostDial (quicHost config peerIdValid fromMultiaddr setup) multiaddr userData w).1 =
          .error e) →
        CleanRefusal peerIdValid w.env
          (hostDial (quicHost config peerIdValid fromMultiaddr setup) multiaddr userData w).2.env) ↔
      ¬ ∃ addr, HostAdmits (quicHost config peerIdValid fromMultiaddr setup) fromMultiaddr multiaddr
        w.host addr ∧ Admits peerIdValid addr setup w.env ∧ w.env.Full := by
  rcases @hostDial_cases (quicHost config peerIdValid fromMultiaddr setup) multiaddr userData w with
    ⟨hstarted, hnonempty, hclosing, hfree, henv, herror⟩ | ⟨hrefused, henv⟩
  · rcases @hostQuicDial_cases peerIdValid fromMultiaddr setup multiaddr userData w.env with
      ⟨addr, hparse, hpeer, hservice, hresult⟩ | ⟨hnone, hservice⟩
    · have hadmits : (∃ addr', HostAdmits (quicHost config peerIdValid fromMultiaddr setup)
          fromMultiaddr multiaddr w.host addr' ∧ Admits peerIdValid addr' setup w.env ∧ w.env.Full) ↔
            Admits peerIdValid addr setup w.env ∧ w.env.Full := by
        constructor
        · rintro ⟨addr', hhost, hrest⟩
          obtain rfl := Except.ok.inj (hparse.symm.trans hhost.parsed)
          exact hrest
        · exact fun hrest => ⟨addr, ⟨hstarted, hnonempty, hclosing, hfree, hparse, hpeer⟩, hrest⟩
      have hdial := serviceDial_clean h addr setup
      rw [hadmits, herror, henv]
      change ((∃ e, (hostQuicDial peerIdValid fromMultiaddr setup multiaddr userData w.env).1 =
        .error e) → CleanRefusal peerIdValid w.env
          (hostQuicDial peerIdValid fromMultiaddr setup multiaddr userData w.env).2) ↔ _
      rw [hresult, hservice]
      exact hdial
    · refine iff_of_true (fun _ => ?_) ?_
      · rw [henv]
        change CleanRefusal peerIdValid w.env
          (hostQuicDial peerIdValid fromMultiaddr setup multiaddr userData w.env).2
        rw [hservice]
        exact cleanRefusal_refl h
      · rintro ⟨addr, hhost, -⟩
        have hpeer := hhost.peerId
        rw [hnone addr hhost.parsed] at hpeer
        cases hpeer
  · refine iff_of_true (fun _ => ?_) ?_
    · rw [henv]
      exact cleanRefusal_refl h
    · rintro ⟨addr, hhost, -⟩
      exact hrefused ⟨hhost.started, hhost.nonempty, hhost.closing, hhost.dial⟩

end

/-- A refused dial of the service, and one of the host, in any state that a run reaches: it leaves no
    connection behind just where the endpoint does not admit an attempt that the service has no entry
    for. -/
theorem dial_refusal_clean (peerIdValid : Bytes → Bool) (endpointConfig : EndpointConfig)
    (eventCap eventCapacity : Nat) (actions : List ServiceAction) (addr : QuicAddr)
    (setup : ConnSetup) (config : HostConfig Service)
    (fromMultiaddr : Bytes → Except QuicErr QuicAddr) (multiaddr : Bytes) (userData : Nat)
    (host : LeanLibp2p.Host) (result : DriveResult) (trace : List Note) :
    let service := (runFrom (ServiceRun.step peerIdValid)
      ⟨Service.start endpointConfig eventCap eventCapacity, []⟩ actions).service
    let dialed := hostDial (quicHost config peerIdValid fromMultiaddr setup) multiaddr userData
      ⟨host, result, service, trace⟩
    (((∃ e, (service.dial peerIdValid addr setup).1 = .error e) →
          CleanRefusal peerIdValid service (service.dial peerIdValid addr setup).2) ↔
        ¬ (Admits peerIdValid addr setup service ∧ service.Full)) ∧
      (((∃ e, dialed.1 = .error e) → CleanRefusal peerIdValid service dialed.2.env) ↔
        ¬ ∃ addr, HostAdmits (quicHost config peerIdValid fromMultiaddr setup) fromMultiaddr
          multiaddr host addr ∧ Admits peerIdValid addr setup service ∧ service.Full) := by
  have hreachable : (runFrom (ServiceRun.step peerIdValid)
      ⟨Service.start endpointConfig eventCap eventCapacity, []⟩ actions).service.Reachable
        peerIdValid := ⟨endpointConfig, eventCap, eventCapacity, actions, rfl⟩
  exact ⟨serviceDial_clean hreachable addr setup,
    hostDial_clean multiaddr userData ⟨host, result, _, trace⟩ hreachable⟩

/-- An address of a peer. -/
def peerAddr : QuicAddr := ⟨.ip4, List.replicate 16 0, 4001, true, [1]⟩

/-- One connection at most, which ended; its `CONN_CLOSED` is still in the endpoint's queue. -/
def endedService : Service :=
  (runFrom (ServiceRun.step fun _ => true) ⟨Service.start ⟨true, true, 1, 1, 1⟩ 8 8, []⟩
    [.dial peerAddr {}, .connError 0 .finished]).service

/-- The next dial is refused, and its connection lives on. -/
theorem dial_refusal_not_clean : ¬ ∀ (service : Service), service.Reachable (fun _ => true) →
    ∀ (addr : QuicAddr) (setup : ConnSetup),
      (∃ e, (service.dial (fun _ => true) addr setup).1 = .error e) →
        CleanRefusal (fun _ => true) service (service.dial (fun _ => true) addr setup).2 := by
  intro hall
  have hclean := hall endedService ⟨_, _, _, _, rfl⟩ peerAddr {} ⟨.limit, by decide +kernel⟩
  have hmore : (endedService.dial (fun _ => true) peerAddr {}).2.endpoint.connections.length =
      endedService.endpoint.connections.length + 1 := by decide +kernel
  have hsame := hclean.connections
  omega

end LeanLibp2p.Quic
