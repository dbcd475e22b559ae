import LeanLibp2p.Lib.Sweep
import LeanLibp2p.Quic.Polling
import LeanLibp2p.Quic.ServiceDial

/-!
# The connections of an endpoint

Every run keeps the connections of an endpoint apart, alive and registered, and its events within the
queue. A connection that is retired leaves a gap that the last one fills.
-/

namespace LeanLibp2p.Quic

open LeanLibp2p.Lib

/-- The connections are there once each, registered and alive, and the queue is not overfull. -/
structure Endpoint.Listed (endpoint : Endpoint) : Prop where
  nodup : endpoint.connections.Nodup
  allocated : ∀ c ∈ endpoint.connections, c < endpoint.objects.length
  registered : ∀ c ∈ endpoint.connections, (endpoint.conn c).endpointRegistered = true
  live : ∀ c ∈ endpoint.connections, (endpoint.conn c).state.live = true
  queued : endpoint.events.length ≤ endpoint.eventCap
  isOpen : endpoint.closed = false

namespace Endpoint

/-- The free places of the event queue. -/
def room (endpoint : Endpoint) : Nat := endpoint.eventCap - endpoint.events.length

variable {endpoint endpoint' : Endpoint} {c c' : Nat}

theorem conn_update_of_ne (h : c ≠ c') (f : Conn → Conn) :
    (endpoint.update c f).conn c' = endpoint.conn c' := by
  simp [conn, update, List.getD_eq_getElem?_getD, h]

theorem conn_update_self (h : c < endpoint.objects.length) (f : Conn → Conn) :
    (endpoint.update c f).conn c = f (endpoint.conn c) := by
  simp [conn, update, List.getD_eq_getElem?_getD, h]

theorem nextTx_moves (conn : Conn) :
    ∃ cursor, conn.nextTx.2 = { conn with nextTxStream := cursor } := by
  unfold Conn.nextTx
  dsimp only
  split
  · exact ⟨conn.nextTxStream, rfl⟩
  · exact ⟨_, rfl⟩

theorem eventPush_spec (hqueued : endpoint.events.length ≤ endpoint.eventCap) (type : EventType)
    (c : Nat) :
    ((endpoint.eventPush type c).1 = .ok () ↔ endpoint.room ≠ 0) ∧
      (endpoint.eventPush type c).2.room = endpoint.room - 1 ∧
      ∃ events, events.length ≤ endpoint.eventCap ∧
        (endpoint.eventPush type c).2 = { endpoint with events := events } := by
  unfold eventPush room
  split
  · rename_i hcap
    exact ⟨by simp [hcap], by simp [hcap], endpoint.events, hqueued, rfl⟩
  split
  · rename_i hfull
    exact ⟨by simp [hfull], by simp [hfull], endpoint.events, hqueued, rfl⟩
  · rename_i hroom
    refine ⟨⟨fun _ => by omega, fun _ => rfl⟩, ?_, _, ?_, rfl⟩
    · simp only [List.length_append, List.length_singleton]
      omega
    · simp only [List.length_append, List.length_singleton]
      omega

theorem eventPush_connections (endpoint : Endpoint) (type : EventType) (c : Nat) :
    (endpoint.eventPush type c).2.connections = endpoint.connections := by
  unfold eventPush
  split
  · rfl
  · split <;> rfl

theorem eventPush_conn (endpoint : Endpoint) (type : EventType) (c c' : Nat) :
    (endpoint.eventPush type c).2.conn c' = endpoint.conn c' := by
  rw [conn, eventPush_objects, conn]

namespace Listed

/-- Only listed connections matter. -/
theorem update (h : endpoint.Listed) (c : Nat) {f : Conn → Conn}
    (hf : c ∈ endpoint.connections →
      (f (endpoint.conn c)).endpointRegistered = true ∧ (f (endpoint.conn c)).state.live = true) :
    (endpoint.update c f).Listed := by
  have hlength : (endpoint.update c f).objects.length = endpoint.objects.length :=
    update_length' endpoint c f
  have hconn : ∀ c' ∈ endpoint.connections,
      ((endpoint.update c f).conn c').endpointRegistered = true ∧
        ((endpoint.update c f).conn c').state.live = true := by
    intro c' hc'
    by_cases heq : c = c'
    · subst heq
      rw [conn_update_self (h.allocated c hc')]
      exact hf hc'
    · rw [conn_update_of_ne heq]
      exact ⟨h.registered c' hc', h.live c' hc'⟩
  exact {
    nodup := h.nodup
    allocated := fun c' hc' => hlength ▸ h.allocated c' hc'
    registered := fun c' hc' => (hconn c' hc').1
    live := fun c' hc' => (hconn c' hc').2
    queued := h.queued
    isOpen := h.isOpen }

theorem withEvents (h : endpoint.Listed) {events : List Event}
    (hqueued : events.length ≤ endpoint.eventCap) :
    ({ endpoint with events := events } : Endpoint).Listed :=
  ⟨h.nodup, h.allocated, h.registered, h.live, hqueued, h.isOpen⟩

theorem eventPush (h : endpoint.Listed) (type : EventType) (c : Nat) :
    (endpoint.eventPush type c).2.Listed := by
  obtain ⟨-, -, events, hqueued, heq⟩ := eventPush_spec h.queued type c
  rw [heq]
  exact h.withEvents hqueued

/-- A connection is told to close. -/
theorem closing (h : endpoint.Listed) (c : Nat) :
    (endpoint.update c fun conn => { conn with closeRequested := true, state := .closing }).Listed :=
  h.update c fun hc => ⟨h.registered c hc, rfl⟩

end Listed

/-- A registered connection is taken out of the array, and the others stay as they are. -/
theorem retire_spec {before after : List Nat} (hnodup : endpoint.connections.Nodup)
    (hsplit : endpoint.connections = before ++ c :: after)
    (hregistered : (endpoint.conn c).endpointRegistered = true) :
    (endpoint.retire c).connections = before ++ (after.getLast?.toList ++ after.dropLast) ∧
      (∀ c', c ≠ c' → (endpoint.retire c).conn c' = endpoint.conn c') ∧
      (endpoint.retire c).events = endpoint.events ∧
      (endpoint.retire c).eventCap = endpoint.eventCap ∧
      (endpoint.retire c).closed = endpoint.closed := by
  have hmem : c ∈ endpoint.connections := by simp [hsplit]
  have hnotin : c ∉ before := by
    rw [hsplit, List.nodup_middle] at hnodup
    exact fun hc => (List.nodup_cons.mp hnodup).1 (List.mem_append_left _ hc)
  have hindex : endpoint.connections.idxOf c = before.length := by
    rw [hsplit, List.idxOf_append_of_notMem hnotin, List.idxOf_cons_self, Nat.add_zero]
  unfold retire
  rw [if_pos ⟨hregistered, hmem⟩]
  refine ⟨?_, fun c' hne => conn_update_of_ne hne _, rfl, rfl, rfl⟩
  change (endpoint.connections.set (endpoint.connections.idxOf c)
    (endpoint.connections.getLastD 0)).dropLast = _
  rw [hindex, hsplit]
  exact dropLast_set before after c 0

/-- A listed connection left. -/
structure Left (endpoint : Endpoint) (before after : List Nat) (endpoint' : Endpoint) : Prop where
  listed : endpoint'.Listed
  connections : endpoint'.connections = before ++ (after.getLast?.toList ++ after.dropLast)
  room : endpoint'.room = endpoint.room - 1

/-- A connection that is closed leaves the endpoint. -/
theorem markClosed_spec (h : endpoint.Listed) {before after : List Nat}
    (hsplit : endpoint.connections = before ++ c :: after) :
    ((endpoint.markClosed c).1 = .ok () ↔ endpoint.room ≠ 0) ∧
      Left endpoint before after (endpoint.markClosed c).2 := by
  have hmem : c ∈ endpoint.connections := by simp [hsplit]
  have hlive := h.live c hmem
  have hstate : (endpoint.conn c).state ≠ .closed := by
    intro heq
    rw [heq] at hlive
    cases hlive
  -- Until it is retired, the closed connection is listed.
  let marked := endpoint.update c fun conn => { conn with state := .closed }
  obtain ⟨hok, hroom, events, hqueued, hpushed⟩ :=
    @eventPush_spec marked h.queued .connClosed c
  have hregistered : (marked.conn c).endpointRegistered = true := by
    rw [conn_update_self (h.allocated c hmem)]
    exact h.registered c hmem
  unfold markClosed
  rw [if_pos hstate]
  refine ⟨hok, ?_⟩
  change Left endpoint before after ((marked.eventPush .connClosed c).2.retire c)
  rw [hpushed] at hroom ⊢
  have hlength := retire_length { marked with events := events } c
  obtain ⟨hconnections, hconn, hevents, hcap, hclosed⟩ :=
    @retire_spec { marked with events := events } c before after h.nodup hsplit hregistered
  have hperm := gap_perm before after
  have hnodup := h.nodup
  rw [hsplit, List.nodup_middle] at hnodup
  obtain ⟨hnew, hrest⟩ := List.nodup_cons.mp hnodup
  have hothers : ∀ c' ∈ before ++ (after.getLast?.toList ++ after.dropLast),
      c' ∈ endpoint.connections ∧ c ≠ c' := by
    intro c' hc'
    have hc' := hperm.mem_iff.mp hc'
    refine ⟨?_, fun heq => hnew (heq ▸ hc')⟩
    rw [hsplit]
    exact List.perm_middle.mem_iff.mpr (List.mem_cons_of_mem _ hc')
  have hsame : ∀ c', c ≠ c' →
      (retire { marked with events := events } c).conn c' = endpoint.conn c' := fun c' hne =>
    (hconn c' hne).trans (conn_update_of_ne hne _)
  refine ⟨⟨?_, ?_, ?_, ?_, ?_, ?_⟩, hconnections, ?_⟩
  · rw [hconnections]
    exact hperm.nodup_iff.mpr hrest
  · intro c' hc'
    rw [hconnections] at hc'
    rw [hlength]
    exact Nat.lt_of_lt_of_eq (h.allocated c' (hothers c' hc').1)
      (update_length' endpoint c _).symm
  · intro c' hc'
    rw [hconnections] at hc'
    rw [hsame c' (hothers c' hc').2]
    exact h.registered c' (hothers c' hc').1
  · intro c' hc'
    rw [hconnections] at hc'
    rw [hsame c' (hothers c' hc').2]
    exact h.live c' (hothers c' hc').1
  · rw [hevents, hcap]
    exact hqueued
  · rw [hclosed]
    exact h.isOpen
  · rw [room, hevents, hcap]
    exact hroom

namespace Listed

variable (h : endpoint.Listed)

include h

theorem markClosed (c : Nat) : (endpoint.markClosed c).2.Listed := by
  by_cases hmem : c ∈ endpoint.connections
  · obtain ⟨before, after, hsplit⟩ := List.append_of_mem hmem
    exact (markClosed_spec h hsplit).2.listed
  · have hstays : ∀ marked : Endpoint, marked.connections = endpoint.connections →
        marked.Listed → (marked.retire c).Listed := by
      intro marked heq hmarked
      unfold Endpoint.retire
      rw [if_neg fun hc => hmem (heq ▸ hc.2)]
      exact hmarked
    unfold Endpoint.markClosed
    split
    · have hmarked := (h.update c (fun hc => absurd hc hmem) :
        (endpoint.update c fun conn => { conn with state := .closed }).Listed)
      obtain ⟨-, -, events, hqueued, hpushed⟩ := eventPush_spec hmarked.queued .connClosed c
      dsimp only
      rw [hpushed]
      exact hstays _ rfl (hmarked.withEvents hqueued)
    · exact hstays _ rfl h

theorem handleConnError (c : Nat) (error : ConnError) :
    (endpoint.handleConnError c error).2.Listed := by
  cases error with
  | endpoint e => exact h
  | finished => exact h.markClosed c
  | violation => exact (h.closing c).eventPush _ c

theorem connClose (c : Nat) : (endpoint.connClose c).2.Listed := by
  unfold Endpoint.connClose
  split
  · exact h
  · exact (h.closing c).eventPush _ c

theorem close : endpoint.close.Listed := by
  unfold Endpoint.close
  split
  · exact h
  · rename_i hopen
    clear hopen
    generalize endpoint.connections = connections
    induction connections generalizing endpoint with
    | nil => exact h
    | cons c connections ih => exact ih (h.closing c)

theorem releaseRetired (c : Nat) :
    (endpoint.releaseRetired c).2.Listed := by
  unfold Endpoint.releaseRetired
  split
  · exact h
  split
  · exact h
  split
  · exact h
  split
  · exact ⟨h.nodup, h.allocated, h.registered, h.live, h.queued, h.isOpen⟩
  · exact h

theorem popEvent : endpoint.popEvent.Listed := by
  refine h.withEvents (Nat.le_trans ?_ h.queued)
  rw [List.length_tail]
  exact Nat.sub_le _ _

/-- An object that no connection of the array is. -/
theorem allocate (conn : Conn) :
    ({ endpoint with objects := endpoint.objects ++ [conn] } : Endpoint).Listed := by
  have hconn : ∀ c ∈ endpoint.connections,
      ({ endpoint with objects := endpoint.objects ++ [conn] } : Endpoint).conn c =
        endpoint.conn c := by
    intro c hc
    simp [Endpoint.conn, List.getD_eq_getElem?_getD,
      List.getElem?_append_left (h.allocated c hc)]
  refine ⟨h.nodup, fun c hc => ?_, fun c hc => ?_, fun c hc => ?_, h.queued, h.isOpen⟩
  · have hlt := h.allocated c hc
    rw [List.length_append]
    omega
  · rw [hconn c hc]
    exact h.registered c hc
  · rw [hconn c hc]
    exact h.live c hc

theorem addConn (hnew : c ∉ endpoint.connections) (hlt : c < endpoint.objects.length)
    (hlive : (endpoint.conn c).state.live = true) (hadd : endpoint.addConn c = .ok endpoint') :
    endpoint'.Listed := by
  unfold Endpoint.addConn at hadd
  dsimp only at hadd
  split at hadd
  · cases hadd
  split at hadd
  · cases hadd
  split at hadd
  · cases hadd
  cases hadd
  have hmarked := (h.update c (fun hc => absurd hc hnew) :
    (endpoint.update c fun conn => { conn with endpointRegistered := true }).Listed)
  have hself : (endpoint.update c fun conn => { conn with endpointRegistered := true }).conn c =
      { endpoint.conn c with endpointRegistered := true } := conn_update_self hlt _
  refine ⟨?_, ?_, ?_, ?_, hmarked.queued, hmarked.isOpen⟩
  · exact List.nodup_append.mpr ⟨h.nodup, List.nodup_singleton c, fun a ha b hb => by
      rw [List.mem_singleton.mp hb]
      exact fun heq => hnew (heq ▸ ha)⟩
  all_goals
    intro c' hc'
    rcases List.mem_append.mp hc' with hc' | hc'
  · exact hmarked.allocated c' hc'
  · rw [List.mem_singleton.mp hc']
    exact Nat.lt_of_lt_of_eq hlt (update_length' endpoint c _).symm
  · exact hmarked.registered c' hc'
  · rw [List.mem_singleton.mp hc']
    exact congrArg Conn.endpointRegistered hself
  · exact hmarked.live c' hc'
  · rw [List.mem_singleton.mp hc']
    exact (congrArg (fun conn => conn.state.live) hself).trans hlive

theorem connNew (role : Role) (type : EventType) (setup : ConnSetup) :
    (endpoint.connNew role type setup).2.Listed := by
  unfold Endpoint.connNew
  split
  · exact h
  have hallocated := h.allocate { role := role }
  have hnew : endpoint.objects.length ∉ endpoint.connections := fun hc =>
    Nat.lt_irrefl _ (h.allocated _ hc)
  have hfresh := conn_new endpoint { role := role }
  dsimp only
  split
  · exact hallocated
  split
  · exact hallocated
  · rename_i hadd
    refine eventPush ?_ type _
    refine addConn hallocated hnew ?_ ?_ hadd
    · simp
    · rw [hfresh]
      rfl

theorem dial (peerIdValid : Bytes → Bool) (addr : QuicAddr) (setup : ConnSetup) :
    (endpoint.dial peerIdValid addr setup).2.Listed := by
  unfold Endpoint.dial
  split
  · exact h
  · exact h.connNew _ _ setup

theorem recvInitial (setup : ConnSetup) :
    (endpoint.recvInitial setup).Listed := by
  unfold Endpoint.recvInitial
  split
  · exact h
  split
  · exact h.connNew _ _ setup
  · exact h

theorem handshakeCompleted (c : Nat) :
    (endpoint.handshakeCompleted c).Listed :=
  (h.update c fun hc => ⟨h.registered c hc, rfl⟩ :
    (endpoint.update c fun conn => { conn with state := .established }).Listed).eventPush _ c

theorem endpointStep (peerIdValid : Bytes → Bool) (action : AuthAction) :
    (AuthRun.endpointStep peerIdValid endpoint action).Listed := by
  cases action with
  | dial addr setup => exact h.dial peerIdValid addr setup
  | recvInitial setup => exact h.recvInitial setup
  | verify c chain now => exact h
  | handshakeCompleted c resumed => exact h.handshakeCompleted c
  | connError c error => exact h.handleConnError c error
  | closeSent c => exact h.markClosed c
  | streamEvent c event => exact h.eventPush _ c
  | txDatagramReady c => exact h.eventPush _ c
  | connClose c => exact h.connClose c
  | close => exact h.close
  | nextEvent => exact h.popEvent
  | releaseRetired c => exact h.releaseRetired c

theorem pollTurn (timers : Timers) (now : UInt64) (c : Nat) :
    (endpoint.pollTurn timers now c).2.Listed := by
  unfold Endpoint.pollTurn
  split
  · exact h.eventPush _ c
  · rename_i error _
    have herror := h.handleConnError c error
    split
    · rename_i heq
      rw [heq] at herror
      exact herror.eventPush _ c
    · rename_i heq
      rw [heq] at herror
      exact herror

theorem pollLoop (timers : Timers) (now : UInt64) (rounds index : Nat) :
    (endpoint.pollLoop timers now rounds index).endpoint.Listed := by
  induction rounds generalizing endpoint index with
  | zero => exact h
  | succ rounds ih =>
    unfold Endpoint.pollLoop
    split
    · exact h
    · rename_i c _
      have hturn := h.pollTurn timers now c
      split
      · split
        · rename_i heq
          rw [heq] at hturn
          exact ih hturn _
        · rename_i heq
          rw [heq] at hturn
          exact hturn
      · exact ih h _

theorem poll (timers : Timers) (now : UInt64) :
    (endpoint.poll timers now).endpoint.Listed := by
  unfold Endpoint.poll
  split
  · exact h
  · exact h.pollLoop timers now _ _

/-- The connection's cursor moves. -/
theorem picked (c : Nat) :
    (endpoint.update c fun conn => conn.nextTx.2).Listed := by
  refine h.update c fun hc => ?_
  obtain ⟨cursor, hcursor⟩ := nextTx_moves (endpoint.conn c)
  rw [hcursor]
  exact ⟨h.registered c hc, h.live c hc⟩

theorem noteSent (c stream dataLen : Nat) :
    (endpoint.noteSent c stream dataLen).Listed := by
  unfold Endpoint.noteSent
  dsimp only
  split
  · have hpushed := h.eventPush (.stream ⟨.streamWritable, stream⟩) c
    exact hpushed.update c fun hc => ⟨hpushed.registered c hc, hpushed.live c hc⟩
  · exact h.update c fun hc => ⟨h.registered c hc, h.live c hc⟩

theorem writeConnDatagram (writes : Writes) (c : Nat) :
    (endpoint.writeConnDatagram writes c).2.Listed := by
  unfold Endpoint.writeConnDatagram
  split
  · split
    · exact h.markClosed c
    · exact h
    · exact h
  · dsimp only
    split
    · split
      · exact (h.picked c).noteSent c _ _
      · exact h.picked c
    · exact h.picked c
    · rename_i error _
      have herror := (h.picked c).handleConnError c error
      split
      · rename_i heq
        rw [heq] at herror
        exact herror
      · rename_i heq
        rw [heq] at herror
        exact herror

theorem datagramLoop (writes : Writes) (start rounds index : Nat) :
    (endpoint.datagramLoop writes start rounds index).endpoint.Listed := by
  induction rounds generalizing endpoint index with
  | zero => exact h
  | succ rounds ih =>
    unfold Endpoint.datagramLoop
    dsimp only
    split
    · exact h
    split
    · have hturn := h.writeConnDatagram writes (endpoint.connections.getD
        ((start + index) % endpoint.connections.length) 0)
      split
      · rename_i heq
        rw [heq] at hturn
        exact ⟨hturn.nodup, hturn.allocated, hturn.registered, hturn.live, hturn.queued,
          hturn.isOpen⟩
      · rename_i heq
        rw [heq] at hturn
        exact ih hturn _
      · rename_i heq
        rw [heq] at hturn
        exact hturn
    · exact ih h _

theorem nextDatagram (writes : Writes) (dataCap : Nat) :
    (endpoint.nextDatagram writes dataCap).endpoint.Listed := by
  have hfirst : ({ endpoint with lastTxConn := none } : Endpoint).Listed :=
    ⟨h.nodup, h.allocated, h.registered, h.live, h.queued, h.isOpen⟩
  unfold Endpoint.nextDatagram
  dsimp only
  split
  · exact hfirst
  split
  · exact hfirst
  · exact hfirst.datagramLoop writes _ _ _

end Listed

end Endpoint

theorem TimedEndpoint.step_listed {peerIdValid : Bytes → Bool} {timed : TimedEndpoint}
    (h : timed.endpoint.Listed) (action : TimedAction) :
    (timed.step peerIdValid action).endpoint.Listed := by
  cases action with
  | call action => exact h.endpointStep peerIdValid action
  | streams c action => exact h.update c fun hc => ⟨h.registered c hc, h.live c hc⟩
  | observe nowUs => exact h
  | poll timers nowUs => exact h.poll timers _
  | nextDatagram writes dataCap => exact h.nextDatagram writes dataCap

/-- Every endpoint keeps its connections so. -/
theorem TimedEndpoint.reachable_listed {peerIdValid : Bytes → Bool} {timed : TimedEndpoint}
    (h : timed.Reachable peerIdValid) : timed.endpoint.Listed := by
  obtain ⟨config, eventCap, actions, rfl⟩ := h
  have hstart : (TimedEndpoint.start config eventCap).endpoint.Listed :=
    ⟨List.nodup_nil, fun c hc => (by cases hc), fun c hc => (by cases hc),
      fun c hc => (by cases hc), Nat.zero_le _, rfl⟩
  exact @runFrom_keeps _ _ _ (fun timed : TimedEndpoint => timed.endpoint.Listed) _ _
    hstart fun timed action hlisted => step_listed hlisted action

end LeanLibp2p.Quic
