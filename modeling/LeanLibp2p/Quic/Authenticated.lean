import LeanLibp2p.Lib.Run
import LeanLibp2p.Quic.Endpoint
import LeanLibp2p.Quic.IdentityExact

/-!
# Established connections are authenticated

An endpoint over any run, with what the TLS verify callback of `quic_backend_ngtcp2_tls.c` records in
each connection. The identity is recorded there, and the connection becomes established in
`quic_backend_handshake_completed_cb`, which does not look at it. A handshake that is resumed from a
session ticket completes without the callback; every other established connection is authenticated.
-/

namespace LeanLibp2p.Quic

open LeanLibp2p.Lib

/-- The part of `libp2p_quic_conn_t` that the verify callback reads and writes. -/
structure ConnTls where
  expectedPeerId : Bytes := []
  hasPeerIdentity : Bool := false
  peerIdentity : PeerIdentity := .zero
  deriving DecidableEq, Repr

namespace ConnTls

/-- The chain's leaf, where there is one certificate, and the time, where it is known. -/
def verifyInput (chain : Option (List Bytes)) (now : Except QuicErr Nat) : Option (Bytes × Nat) :=
  match chain, now with
  | some [leaf], .ok now => some (leaf, now)
  | _, _ => none

/-- `quic_backend_ssl_verify_cb` (`quic_backend_ngtcp2_tls.c:85-171`): whether the certificate is
    taken, and the connection. `chain` is what `SSL_get0_peer_certificates` returns and `now` what
    `unix_time_fn` does. -/
def sslVerifyCb (x509 : X509Parser) (lib : Secp256k1) (chain : Option (List Bytes))
    (now : Except QuicErr Nat) (conn : ConnTls) : Bool × ConnTls :=
  match verifyInput chain now with
  | none => (false, conn)
  | some (leaf, now) =>
    let expected := if conn.expectedPeerId.length ≠ 0 then some conn.expectedPeerId else none
    let run := verifyPeerCertificateChain x509 lib (.array [.ptr leaf]) (.ofOption expected) now
      ⟨some conn.peerIdentity, none⟩
    let conn := { conn with peerIdentity := run.2.out.getD .zero }
    match run.1 with
    | .error _ => (false, conn)
    | .ok () => (true, { conn with hasPeerIdentity := true })

/-- `quic_backend_conn_peer_id` (`quic_backend_ngtcp2_conn.c:1127-1154`) into `outLen` bytes. -/
def connPeerId (conn : ConnTls) (outLen : Nat) : Except QuicErr Bytes :=
  if ¬ conn.hasPeerIdentity then .error .state
  else if outLen < conn.peerIdentity.peerIdLen then .error .bufTooSmall
  else .ok (conn.peerIdentity.peerId.take conn.peerIdentity.peerIdLen)

end ConnTls

/-- A connection's TLS part, with what the application and the TLS library know of it: the peer id it
    was dialed for, the callback's last answer with the identity that it accepted, and whether the
    handshake completed. -/
structure ConnRecord where
  tls : ConnTls := {}
  dialed : Option Bytes := none
  verdict : Option (Option PeerIdentity) := none
  completed : Bool := false
  deriving DecidableEq

namespace Endpoint

/-- The connections with a `CONN_ESTABLISHED` event in the queue. -/
def established (endpoint : Endpoint) : List Nat :=
  (endpoint.events.filter fun event => event.type = .connEstablished).map (·.conn)

/-- `quic_backend_endpoint_next_event`, which takes the first event. -/
def popEvent (endpoint : Endpoint) : Endpoint := { endpoint with events := endpoint.events.tail }

end Endpoint

/-- The endpoint, its connections, those for which `CONN_ESTABLISHED` was ever queued, and whether
    its server context has issued a session ticket. -/
structure AuthRun where
  endpoint : Endpoint
  conns : Nat → ConnRecord := fun _ => {}
  announced : List Nat := []
  ticketIssued : Bool := false

/-- What can happen to an endpoint: calls of the application, callbacks of the TLS library, and what
    ngtcp2 does with the datagrams and deadlines it is given. -/
inductive AuthAction where
  | dial (addr : QuicAddr) (setup : ConnSetup)
  | recvInitial (setup : ConnSetup)
  | verify (c : Nat) (chain : Option (List Bytes)) (now : Except QuicErr Nat)
  | handshakeCompleted (c : Nat) (resumed : Bool)
  | connError (c : Nat) (error : ConnError)
  | closeSent (c : Nat)
  | streamEvent (c : Nat) (event : StreamEvent)
  | txDatagramReady (c : Nat)
  | connClose (c : Nat)
  | close
  | nextEvent
  | releaseRetired (c : Nat)

namespace AuthRun

variable (x509 : X509Parser) (lib : Secp256k1) (peerIdValid : Bytes → Bool)

/-- What happens to the endpoint. -/
def endpointStep (endpoint : Endpoint) : AuthAction → Endpoint
  | .dial addr setup => (endpoint.dial peerIdValid addr setup).2
  | .recvInitial setup => endpoint.recvInitial setup
  | .verify .. => endpoint
  | .handshakeCompleted c _ => endpoint.handshakeCompleted c
  | .connError c error => (endpoint.handleConnError c error).2
  | .closeSent c => (endpoint.markClosed c).2
  | .streamEvent c event => (endpoint.eventPush (.stream event) c).2
  | .txDatagramReady c => (endpoint.eventPush .txDatagramReady c).2
  | .connClose c => (endpoint.connClose c).2
  | .close => endpoint.close
  | .nextEvent => endpoint.popEvent
  | .releaseRetired c => (endpoint.releaseRetired c).2

/-- What happens to the record of a connection that there is. -/
def recordStep (c : Nat) (record : ConnRecord) : AuthAction → ConnRecord
  | .verify c' chain now =>
    if c' = c then
      let (accepted, tls) := record.tls.sslVerifyCb x509 lib chain now
      { record with
        tls := tls
        verdict := some (if accepted then some tls.peerIdentity else none) }
    else record
  | .handshakeCompleted c' _ => if c' = c then { record with completed := true } else record
  | _ => record

/-- The record of a connection that an action allocates: `quic_backend_conn_client_new` keeps the
    peer id of the address (`quic_backend_ngtcp2_conn.c:488-492`). -/
def freshRecord : AuthAction → ConnRecord
  | .dial addr _ => { tls := { expectedPeerId := addr.peerId }, dialed := some addr.peerId }
  | _ => {}

/-- The connection that a callback is for. -/
def callee : AuthAction → Option Nat
  | .verify c .. | .handshakeCompleted c _ => some c
  | _ => none

/-- One thing happens. Callbacks are made for connections that there are. -/
def step (run : AuthRun) (action : AuthAction) : AuthRun :=
  if (callee action).any fun c => decide (run.endpoint.objects.length ≤ c) then run
  else
    let endpoint := endpointStep peerIdValid run.endpoint action
    { endpoint := endpoint
      conns := fun c =>
        if c < run.endpoint.objects.length then recordStep x509 lib c (run.conns c) action
        else freshRecord action
      announced := run.announced ++ endpoint.established
      ticketIssued :=
        run.ticketIssued ||
          match action with
          | .handshakeCompleted c _ => (run.endpoint.conn c).role = .server
          | _ => false }

/-- An endpoint that was just initialized. -/
def start (config : EndpointConfig) (eventCap : Nat) : AuthRun where
  endpoint := { config := config, eventCap := eventCap }

/-- What is assumed of the TLS library. It calls the verify callback while the handshake goes on; it
    completes no handshake after the callback refused; and it completes none without the callback but
    one that is resumed from a session ticket, which only a server's context issues. -/
def TlsContract (run : AuthRun) : AuthAction → Prop
  | .verify c .. => (run.conns c).completed = false
  | .handshakeCompleted c resumed =>
    (run.conns c).verdict ≠ some none ∧
      (resumed = false → (run.conns c).verdict ≠ none) ∧
      (resumed = true → (run.endpoint.conn c).role = .server ∧ run.ticketIssued = true)
  | _ => True

instance (run : AuthRun) : (action : AuthAction) → Decidable (run.TlsContract action)
  | .verify .. => inferInstanceAs (Decidable (_ = _))
  | .handshakeCompleted .. => inferInstanceAs (Decidable (_ ∧ _ ∧ _))
  | .dial .. | .recvInitial .. | .connError .. | .closeSent .. | .streamEvent .. | .txDatagramReady ..
  | .connClose .. | .close | .nextEvent | .releaseRetired .. => .isTrue trivial

/-- The handshake is not resumed. -/
def NotResumed : AuthAction → Prop
  | .handshakeCompleted _ resumed => resumed = false
  | _ => True

instance : (action : AuthAction) → Decidable (NotResumed action)
  | .handshakeCompleted .. => inferInstanceAs (Decidable (_ = _))
  | .dial .. | .recvInitial .. | .verify .. | .connError .. | .closeSent .. | .streamEvent ..
  | .txDatagramReady .. | .connClose .. | .close | .nextEvent | .releaseRetired .. => .isTrue trivial

/-- The connection has the identity that the callback accepted on it, which a certificate certified;
    the peer-id query returns its peer id, and that is the one which the connection was dialed for. -/
structure Authenticated (run : AuthRun) (c : Nat) : Prop where
  accepted : (run.conns c).verdict = some (some (run.conns c).tls.peerIdentity)
  certified : ∃ der hostKey, ∃ now before after : Nat,
    Certifies x509 lib der now hostKey before after ∧
    (run.conns c).tls.peerIdentity = .of (lib.peerIdOf hostKey) (keyMessage hostKey) before after ∧
    (∀ outLen, peerIdMaxBytes ≤ outLen →
      (run.conns c).tls.connPeerId outLen = .ok (lib.peerIdOf hostKey)) ∧
    ∀ id, (run.conns c).dialed = some id → id = lib.peerIdOf hostKey

end AuthRun

/-! ## What the callback accepts -/

/-- The identity is one that a certificate certifies, for the expected peer id if there is one. -/
def CertifiedIdentity (x509 : X509Parser) (lib : Secp256k1) (expected : Bytes)
    (identity : PeerIdentity) : Prop :=
  ∃ der hostKey, ∃ now before after : Nat, Certifies x509 lib der now hostKey before after ∧
    identity = .of (lib.peerIdOf hostKey) (keyMessage hostKey) before after ∧
    (expected ≠ [] → expected = lib.peerIdOf hostKey)

theorem Certifies.validKey {x509 : X509Parser} {lib : Secp256k1} {der hostKey : Bytes} {now : Nat}
    {notBefore notAfter : Int} (h : Certifies x509 lib der now hostKey notBefore notAfter) :
    lib.ValidKey hostKey := by
  obtain ⟨cert, key, payload, -, -, spki, signature, -, -, hvalid, -⟩ := h
  exact hvalid

theorem sslVerifyCb_expected (x509 : X509Parser) (lib : Secp256k1) (chain : Option (List Bytes))
    (now : Except QuicErr Nat) (conn : ConnTls) :
    (conn.sslVerifyCb x509 lib chain now).2.expectedPeerId = conn.expectedPeerId := by
  unfold ConnTls.sslVerifyCb
  split
  · rfl
  · dsimp only
    split <;> rfl

/-- A callback that accepts records an identity that the certificate certifies. -/
theorem sslVerifyCb_accepts {x509 : X509Parser} {lib : Secp256k1} {chain : Option (List Bytes)}
    {now : Except QuicErr Nat} {conn : ConnTls}
    (h : (conn.sslVerifyCb x509 lib chain now).1 = true) :
    (conn.sslVerifyCb x509 lib chain now).2.hasPeerIdentity = true ∧
      CertifiedIdentity x509 lib conn.expectedPeerId
        (conn.sslVerifyCb x509 lib chain now).2.peerIdentity := by
  unfold ConnTls.sslVerifyCb at h ⊢
  cases hinput : ConnTls.verifyInput chain now with
  | none => simp [hinput] at h
  | some input =>
    obtain ⟨leaf, time⟩ := input
    simp only [hinput] at h ⊢
    generalize hexpected : (if conn.expectedPeerId.length ≠ 0 then some conn.expectedPeerId
      else none) = expected at h ⊢
    rcases hrun : verifyPeerCertificateChain x509 lib (.array [.ptr leaf]) (.ofOption expected) time
      ⟨some conn.peerIdentity, none⟩ with ⟨e | u, s'⟩
    · simp [hrun] at h
    · obtain ⟨der, hostKey, before, after, -, hcertifies, hpin, hout⟩ :=
        verifyPeerCertificateInternal_of_ok
          (s := (⟨some conn.peerIdentity, none⟩ : VerifyOut).note fun _ => {}) hrun
      refine ⟨rfl, der, hostKey, time, before, after, hcertifies, ?_, fun hne => ?_⟩
      · rw [hout]
        rfl
      · have hlen : conn.expectedPeerId.length ≠ 0 := fun h0 => hne (List.eq_nil_of_length_eq_zero h0)
        rw [if_pos hlen] at hexpected
        exact (pinMismatch_eq_false_iff.mp hpin _ hexpected.symm).resolve_left hne

theorem connPeerId_of {conn : ConnTls} {peerId message : Bytes} {before after outLen : Nat}
    (hhas : conn.hasPeerIdentity = true) (h : conn.peerIdentity = .of peerId message before after)
    (hout : peerId.length ≤ outLen) : conn.connPeerId outLen = .ok peerId := by
  unfold ConnTls.connPeerId
  rw [h, hhas]
  simp only [PeerIdentity.of, zeroPadded, not_true_eq_false, if_false, List.take_left]
  rw [if_neg (by omega)]

/-! ## What is queued -/

/-- Connections may have been made and no connection was announced as established. -/
structure Quiet (endpoint endpoint' : Endpoint) : Prop where
  objects : endpoint.objects.length ≤ endpoint'.objects.length
  established : ∀ c ∈ endpoint'.established, c ∈ endpoint.established

namespace Quiet

variable {endpoint endpoint' endpoint'' : Endpoint}

theorem refl (endpoint : Endpoint) : Quiet endpoint endpoint := ⟨Nat.le_refl _, fun _ h => h⟩

theorem trans (h : Quiet endpoint endpoint') (h' : Quiet endpoint' endpoint'') :
    Quiet endpoint endpoint'' :=
  ⟨Nat.le_trans h.objects h'.objects, fun c hc => h.established c (h'.established c hc)⟩

/-- Neither the queue nor the number of connections changes. -/
theorem of_same (hevents : endpoint'.events = endpoint.events)
    (hobjects : endpoint'.objects.length = endpoint.objects.length) : Quiet endpoint endpoint' := by
  refine ⟨Nat.le_of_eq hobjects.symm, fun c hc => ?_⟩
  rwa [Endpoint.established, hevents] at hc

theorem update (endpoint : Endpoint) (c : Nat) (f : Conn → Conn) :
    Quiet endpoint (endpoint.update c f) :=
  of_same rfl (List.length_modify ..)

theorem eventPush (endpoint : Endpoint) {type : EventType} (h : type ≠ .connEstablished) (c : Nat) :
    Quiet endpoint (endpoint.eventPush type c).2 := by
  unfold Endpoint.eventPush
  split
  · exact refl _
  split
  · exact refl _
  · refine ⟨Nat.le_refl _, fun c' hc' => ?_⟩
    simpa [Endpoint.established, h] using hc'

theorem retire (endpoint : Endpoint) (c : Nat) : Quiet endpoint (endpoint.retire c) := by
  unfold Endpoint.retire
  split
  · exact of_same rfl (List.length_modify ..)
  · exact refl _

theorem markClosed (endpoint : Endpoint) (c : Nat) : Quiet endpoint (endpoint.markClosed c).2 := by
  unfold Endpoint.markClosed
  split
  · have hpush := (update endpoint c fun conn => { conn with state := .closed }).trans
      (eventPush _ (by simp) c : Quiet _ (Endpoint.eventPush _ .connClosed c).2)
    exact hpush.trans (retire _ c)
  · exact retire endpoint c

theorem closing (endpoint : Endpoint) (c : Nat) :
    Quiet endpoint ((endpoint.update c fun conn =>
      { conn with closeRequested := true, state := .closing }).eventPush .txDatagramReady c).2 :=
  (update endpoint c _).trans (eventPush _ (by simp) c)

theorem handleConnError (endpoint : Endpoint) (c : Nat) (error : ConnError) :
    Quiet endpoint (endpoint.handleConnError c error).2 := by
  cases error with
  | endpoint e => exact refl _
  | finished => exact markClosed endpoint c
  | violation => exact closing endpoint c

theorem connClose (endpoint : Endpoint) (c : Nat) : Quiet endpoint (endpoint.connClose c).2 := by
  unfold Endpoint.connClose
  split
  · exact refl _
  · exact closing endpoint c

theorem close (endpoint : Endpoint) : Quiet endpoint endpoint.close := by
  unfold Endpoint.close
  split
  · exact refl _
  · rename_i hopen
    clear hopen
    generalize endpoint.connections = connections
    induction connections generalizing endpoint with
    | nil => exact refl _
    | cons c connections ih => exact (update endpoint c _).trans (ih _)

theorem releaseRetired (endpoint : Endpoint) (c : Nat) :
    Quiet endpoint (endpoint.releaseRetired c).2 := by
  unfold Endpoint.releaseRetired
  split
  · exact refl _
  split
  · exact refl _
  split
  · exact refl _
  split
  · exact of_same rfl rfl
  · exact refl _

theorem popEvent (endpoint : Endpoint) : Quiet endpoint endpoint.popEvent := by
  refine ⟨Nat.le_refl _, fun c hc => ?_⟩
  obtain ⟨event, hmem, rfl⟩ := List.mem_map.mp hc
  obtain ⟨htail, htype⟩ := List.mem_filter.mp hmem
  exact List.mem_map_of_mem (List.mem_filter.mpr ⟨List.mem_of_mem_tail htail, htype⟩)

theorem addConn {c : Nat} (h : endpoint.addConn c = .ok endpoint') : Quiet endpoint endpoint' := by
  unfold Endpoint.addConn at h
  dsimp only at h
  split at h
  · cases h
  split at h
  · cases h
  split at h
  · cases h
  · cases h
    exact of_same rfl (List.length_modify ..)

theorem connNew (endpoint : Endpoint) (role : Role) {type : EventType}
    (h : type ≠ .connEstablished) (setup : ConnSetup) :
    Quiet endpoint (endpoint.connNew role type setup).2 := by
  have hnew : Quiet endpoint { endpoint with objects := endpoint.objects ++ [{ role := role }] } :=
    ⟨by rw [List.length_append]; omega, fun _ hc => hc⟩
  unfold Endpoint.connNew
  split
  · exact refl _
  dsimp only
  split
  · exact hnew
  split
  · exact hnew
  · rename_i hadd
    exact hnew.trans ((addConn hadd).trans (eventPush _ h _))

theorem dial (peerIdValid : Bytes → Bool) (addr : QuicAddr) (setup : ConnSetup)
    (endpoint : Endpoint) : Quiet endpoint (endpoint.dial peerIdValid addr setup).2 := by
  unfold Endpoint.dial
  split
  · exact refl _
  · exact connNew endpoint .client (by simp) setup

theorem recvInitial (setup : ConnSetup) (endpoint : Endpoint) :
    Quiet endpoint (endpoint.recvInitial setup) := by
  unfold Endpoint.recvInitial
  split
  · exact refl _
  split
  · exact connNew endpoint .server (by simp) setup
  · exact refl _

end Quiet

/-- A handshake that completes announces its connection and no other. -/
theorem handshakeCompleted_established (endpoint : Endpoint) (c : Nat) :
    (endpoint.handshakeCompleted c).objects.length = endpoint.objects.length ∧
      ∀ c' ∈ (endpoint.handshakeCompleted c).established, c' = c ∨ c' ∈ endpoint.established := by
  unfold Endpoint.handshakeCompleted Endpoint.eventPush
  split
  · exact ⟨List.length_modify .., fun c' hc' => .inr hc'⟩
  split
  · exact ⟨List.length_modify .., fun c' hc' => .inr hc'⟩
  · refine ⟨List.length_modify .., fun c' hc' => ?_⟩
    simp only [Endpoint.established, List.filter_append, List.map_append, List.mem_append] at hc'
    rcases hc' with hc' | hc'
    · exact .inr hc'
    · exact .inl (by simpa using hc')

namespace AuthRun

variable {x509 : X509Parser} {lib : Secp256k1} {peerIdValid : Bytes → Bool} {run : AuthRun}

/-- The callbacks apart, no action announces a connection as established. -/
theorem endpointStep_quiet (endpoint : Endpoint) {action : AuthAction}
    (h : ∀ c resumed, action ≠ .handshakeCompleted c resumed) :
    Quiet endpoint (endpointStep peerIdValid endpoint action) := by
  cases action with
  | dial addr setup => exact .dial peerIdValid addr setup endpoint
  | recvInitial setup => exact .recvInitial setup endpoint
  | verify c chain now => exact .refl endpoint
  | handshakeCompleted c resumed => exact absurd rfl (h c resumed)
  | connError c error => exact .handleConnError endpoint c error
  | closeSent c => exact .markClosed endpoint c
  | streamEvent c event => exact .eventPush endpoint (by simp) c
  | txDatagramReady c => exact .eventPush endpoint (by simp) c
  | connClose c => exact .connClose endpoint c
  | close => exact .close endpoint
  | nextEvent => exact .popEvent endpoint
  | releaseRetired c => exact .releaseRetired endpoint c

/-! ## The invariant -/

/-- A record's completed handshake was accepted, and what was accepted last is what is recorded. -/
structure ConnRecord.Good (x509 : X509Parser) (lib : Secp256k1) (record : ConnRecord) : Prop where
  taken : record.completed = true → ∃ identity, record.verdict = some (some identity)
  recorded : ∀ identity, record.verdict = some (some identity) →
    record.tls.hasPeerIdentity = true ∧ record.tls.peerIdentity = identity ∧
    CertifiedIdentity x509 lib record.tls.expectedPeerId identity
  dialed : ∀ id, record.dialed = some id → id = record.tls.expectedPeerId ∧ id ≠ []

structure Invariant (x509 : X509Parser) (lib : Secp256k1) (run : AuthRun) : Prop where
  announced : ∀ c ∈ run.announced,
    c < run.endpoint.objects.length ∧ (run.conns c).completed = true
  queued : ∀ c ∈ run.endpoint.established, c ∈ run.announced
  good : ∀ c, c < run.endpoint.objects.length → ConnRecord.Good x509 lib (run.conns c)

/-- What the assumptions and the condition say of an action on a record. -/
def RecordMeets (c : Nat) (record : ConnRecord) : AuthAction → Prop
  | .verify c' .. => c' = c → record.completed = false
  | .handshakeCompleted c' _ => c' = c → ∃ identity, record.verdict = some (some identity)
  | _ => True

theorem recordMeets_of_contract {action : AuthAction} (h : TlsContract run action)
    (hresumed : NotResumed action) (c : Nat) : RecordMeets c (run.conns c) action := by
  cases action with
  | verify c' chain now =>
    rintro rfl
    exact h
  | handshakeCompleted c' resumed =>
    rintro rfl
    obtain ⟨hrefused, hcalled, -⟩ := h
    have hcalled := hcalled hresumed
    rcases hverdict : (run.conns c').verdict with _ | _ | identity
    · exact absurd hverdict hcalled
    · exact absurd hverdict hrefused
    · exact ⟨identity, rfl⟩
  | _ => trivial

theorem recordStep_good {c : Nat} {record : ConnRecord} {action : AuthAction}
    (h : ConnRecord.Good x509 lib record) (hmeets : RecordMeets c record action) :
    ConnRecord.Good x509 lib (recordStep x509 lib c record action) := by
  cases action with
  | verify c' chain now =>
    simp only [recordStep]
    split
    · rename_i hc
      have hopen := hmeets hc
      refine ⟨fun hcompleted => absurd hcompleted (by simp [hopen]), fun identity hverdict => ?_,
        fun id hid => ?_⟩
      · simp only [Option.some.injEq, Option.ite_none_right_eq_some] at hverdict
        obtain ⟨haccepted, rfl⟩ := hverdict
        obtain ⟨hhas, hcertified⟩ := sslVerifyCb_accepts haccepted
        exact ⟨hhas, rfl, by rwa [sslVerifyCb_expected]⟩
      · rw [sslVerifyCb_expected]
        exact h.dialed id hid
    · exact h
  | handshakeCompleted c' resumed =>
    simp only [recordStep]
    split
    · rename_i hc
      exact ⟨fun _ => hmeets hc, h.recorded, h.dialed⟩
    · exact h
  | _ => exact h

theorem recordStep_completed {c : Nat} {record : ConnRecord} (action : AuthAction)
    (h : record.completed = true) : (recordStep x509 lib c record action).completed = true := by
  cases action with
  | verify c' chain now =>
    simp only [recordStep]
    split
    · exact h
    · exact h
  | handshakeCompleted c' resumed =>
    simp only [recordStep]
    split
    · rfl
    · exact h
  | _ => exact h

/-- A connection that an action makes starts with a good record. -/
theorem freshRecord_good {endpoint : Endpoint} {action : AuthAction}
    (h : endpoint.objects.length < (endpointStep peerIdValid endpoint action).objects.length) :
    ConnRecord.Good x509 lib (freshRecord action) := by
  have hempty : ConnRecord.Good x509 lib {} :=
    ⟨fun h => (by cases h), fun _ h => (by cases h), fun _ h => (by cases h)⟩
  cases action with
  | dial addr setup =>
    refine ⟨fun h => (by cases h), fun _ h => (by cases h), fun id hid => ?_⟩
    cases hid
    refine ⟨rfl, fun hnil => ?_⟩
    have hcheck : ∃ e, endpoint.checkDial peerIdValid addr = .error e := by
      simp only [Endpoint.checkDial, bind, Except.bind, pure, Except.pure, throw, throwThe,
        MonadExceptOf.throw, hnil, List.length_nil, or_true, if_true]
      repeat' split
      all_goals simp
    obtain ⟨e, hcheck⟩ := hcheck
    simp only [endpointStep, Endpoint.dial, hcheck] at h
    omega
  | _ => exact hempty

theorem invariant_step {action : AuthAction} (h : Invariant x509 lib run)
    (hcontract : TlsContract run action) (hresumed : NotResumed action) :
    Invariant x509 lib (run.step x509 lib peerIdValid action) := by
  unfold step
  split
  · exact h
  rename_i hcallee
  have hgrows : run.endpoint.objects.length ≤
        (endpointStep peerIdValid run.endpoint action).objects.length ∧
      ∀ c ∈ (endpointStep peerIdValid run.endpoint action).established,
        c ∈ run.announced ∨ c < run.endpoint.objects.length ∧
          (recordStep x509 lib c (run.conns c) action).completed = true := by
    by_cases hdone : ∃ c resumed, action = .handshakeCompleted c resumed
    · obtain ⟨c, resumed, rfl⟩ := hdone
      obtain ⟨hobjects, hestablished⟩ := handshakeCompleted_established run.endpoint c
      refine ⟨Nat.le_of_eq hobjects.symm, fun c' hc' => ?_⟩
      rcases hestablished c' hc' with rfl | hc'
      · right
        refine ⟨by simpa [callee] using hcallee, ?_⟩
        simp [recordStep]
      · exact .inl (h.queued c' hc')
    · have hquiet := @endpointStep_quiet peerIdValid run.endpoint action
        fun c resumed hc => hdone ⟨c, resumed, hc⟩
      exact ⟨hquiet.objects, fun c hc => .inl (h.queued c (hquiet.established c hc))⟩
  refine ⟨fun c hc => ?_, fun c hc => List.mem_append_right _ hc, fun c hc => ?_⟩
  · have hkept (hc : c ∈ run.announced) : c < run.endpoint.objects.length ∧
        (recordStep x509 lib c (run.conns c) action).completed = true :=
      ⟨(h.announced c hc).1, recordStep_completed action (h.announced c hc).2⟩
    have hdone : c < run.endpoint.objects.length ∧
        (recordStep x509 lib c (run.conns c) action).completed = true := by
      rcases List.mem_append.mp hc with hc | hc
      · exact hkept hc
      · exact (hgrows.2 c hc).elim hkept id
    refine ⟨Nat.lt_of_lt_of_le hdone.1 hgrows.1, ?_⟩
    dsimp only
    rw [if_pos hdone.1]
    exact hdone.2
  · dsimp only at hc ⊢
    split
    · rename_i hlt
      exact recordStep_good (h.good c hlt) (recordMeets_of_contract hcontract hresumed c)
    · rename_i hge
      exact @freshRecord_good x509 lib peerIdValid run.endpoint action (by omega)

theorem authenticated_of_good {c : Nat} (h : ConnRecord.Good x509 lib (run.conns c))
    (hcompleted : (run.conns c).completed = true) : run.Authenticated x509 lib c := by
  obtain ⟨identity, hverdict⟩ := h.taken hcompleted
  obtain ⟨hhas, rfl, der, hostKey, now, before, after, hcertifies, hidentity, hexpected⟩ :=
    h.recorded identity hverdict
  have hlen := Secp256k1.peerIdOf_length_le hcertifies.validKey
  refine ⟨hverdict, der, hostKey, now, before, after, hcertifies, hidentity, fun outLen hout => ?_,
    fun id hid => ?_⟩
  · exact connPeerId_of hhas hidentity (Nat.le_trans hlen hout)
  · obtain ⟨rfl, hne⟩ := h.dialed id hid
    exact hexpected hne

/-- In a run without a resumed handshake, each connection that was announced as established is
    authenticated from then on. -/
theorem established_authenticated (x509 : X509Parser) (lib : Secp256k1)
    (peerIdValid : Bytes → Bool) (config : EndpointConfig) (eventCap : Nat)
    (actions : List AuthAction)
    (hmeets : RunMeets (step x509 lib peerIdValid)
      (fun run action => run.TlsContract action ∧ NotResumed action) (start config eventCap) actions) :
    ∀ c ∈ (runFrom (step x509 lib peerIdValid) (start config eventCap) actions).announced,
      (runFrom (step x509 lib peerIdValid) (start config eventCap) actions).Authenticated x509 lib
        c := by
  have hstart : Invariant x509 lib (start config eventCap) :=
    ⟨fun c hc => (by cases hc), fun c hc => (by cases hc), fun c hc => (by cases hc)⟩
  have hrun := run_keeps hmeets hstart fun run action hstep h => invariant_step h hstep.1 hstep.2
  intro c hc
  obtain ⟨hlt, hcompleted⟩ := hrun.announced c hc
  exact authenticated_of_good (hrun.good c hlt) hcompleted

/-- Room for two connections of either role. -/
def sampleConfig : EndpointConfig := ⟨true, true, 2, 2, 2⟩

/-- An address with the peer id of the sample certificate's host key. -/
def sampleAddr : QuicAddr :=
  ⟨.ip4, List.replicate 16 0, 4001, true, sampleSecp256k1.peerIdOf (2 :: List.replicate 32 1)⟩

/-- A connection that was dialed and one that came in, both verified. -/
def sampleHandshakes : List AuthAction :=
  [.dial sampleAddr {}, .verify 0 (some [[1]]) (.ok 50), .handshakeCompleted 0 false,
    .recvInitial {}, .verify 1 (some [[1]]) (.ok 50), .handshakeCompleted 1 false]

theorem established_authenticated_sample :
    (runFrom (step sampleParser sampleSecp256k1 fun _ => true) (start sampleConfig 8)
        sampleHandshakes).announced ≠ [] ∧
      ∀ c ∈ (runFrom (step sampleParser sampleSecp256k1 fun _ => true) (start sampleConfig 8)
          sampleHandshakes).announced,
        (runFrom (step sampleParser sampleSecp256k1 fun _ => true) (start sampleConfig 8)
          sampleHandshakes).Authenticated sampleParser sampleSecp256k1 c :=
  ⟨by decide +kernel, established_authenticated sampleParser sampleSecp256k1 (fun _ => true)
    sampleConfig 8 sampleHandshakes (by decide +kernel)⟩

/-- A server takes a connection whose certificate it verifies and gives it a session ticket. The next
    connection resumes that session: it is established and has no identity. -/
def resumedHandshake : List AuthAction :=
  [.recvInitial {}, .verify 0 (some [[1]]) (.ok 50), .handshakeCompleted 0 false,
    .recvInitial {}, .handshakeCompleted 1 true]

theorem resumed_not_authenticated :
    ¬ ∀ actions, RunMeets (step sampleParser sampleSecp256k1 fun _ => true)
        (fun run action => run.TlsContract action) (start sampleConfig 8) actions →
      ∀ c ∈ (runFrom (step sampleParser sampleSecp256k1 fun _ => true) (start sampleConfig 8)
          actions).announced,
        (runFrom (step sampleParser sampleSecp256k1 fun _ => true) (start sampleConfig 8)
          actions).Authenticated sampleParser sampleSecp256k1 c := by
  intro h
  have haccepted := (h resumedHandshake (by decide +kernel) 1 (by decide +kernel)).accepted
  revert haccepted
  decide +kernel

end AuthRun

end LeanLibp2p.Quic
