import LeanLibp2p.Host.Run

/-!
# A transport that plays a script

A transport for examples: it hands over given events, and streams on which given bytes can be read. It
numbers the dials and the streams that it opens, accepts every write, and may refuse to close
connections.
-/

namespace LeanLibp2p.Host

open LeanLibp2p.Lib

/-- What is still to come. -/
structure Script where
  events : List TransportEvent := []
  /-- The bytes of each stream, in the order in which they are read. -/
  bytes : List (Nat × Bytes) := []
  /-- The number of the next dial or stream. -/
  number : Nat := 100
  refusesClose : Bool := false
  deriving DecidableEq, Repr

namespace Script

def nextEvent : Comp Script HostErr TransportEvent := fun script =>
  match script.events with
  | [] => (.error .wouldBlock, script)
  | event :: events => (.ok event, { script with events := events })

def takeNumber : Comp Script HostErr Nat := fun script =>
  (.ok script.number, { script with number := script.number + 1 })

def connClose : Comp Script HostErr Unit := fun script =>
  (if script.refusesClose then .error .wouldBlock else .ok (), script)

/-- The first bytes of a stream. -/
def bytesOf (stream : Nat) (script : Script) : Bytes :=
  (script.bytes.lookup stream).getD []

def streamRead (stream room : Nat) : Comp Script HostErr (Bytes × Bool) := fun script =>
  if script.bytesOf stream = [] then (.error .wouldBlock, script)
  else
    (.ok ((script.bytesOf stream).take room, false), { script with
      bytes := (stream, (script.bytesOf stream).drop room) :: script.bytes })

theorem streamRead_le (stream room : Nat) (script : Script) (bytes : Bytes) (fin : Bool)
    (script' : Script) (h : streamRead stream room script = (.ok (bytes, fin), script')) :
    bytes.length ≤ room := by
  unfold streamRead at h
  by_cases hnone : script.bytesOf stream = []
  · rw [if_pos hnone] at h
    cases h
  · rw [if_neg hnone] at h
    cases h
    exact List.length_take_le ..

/-- The transport. -/
def transport : TransportVtable Script where
  drive := fun _ _ => pure ()
  nextEvent := nextEvent
  dial := fun _ _ => takeNumber
  openStream := fun _ => takeNumber
  connClose := fun _ _ => connClose
  connRelease := none
  streamRead := streamRead
  streamWrite := fun _ data _ => pure data.length
  streamFinish := fun _ => pure ()
  streamReset := fun _ _ => pure ()
  streamStopSending := fun _ _ => pure ()
  streamRead_le := streamRead_le
  streamWrite_le := by
    rintro stream data fin script accepted script' ⟨⟩
    exact Nat.le_refl _

/-- A host with these protocols and room for so many connections and streams. -/
def config (protocols : List (Protocol Script)) (conns streams : Nat) (hconns : 0 < conns)
    (hstreams : 0 < streams) (hids : ∀ protocol ∈ protocols, ProtocolId protocol.id) :
    HostConfig Script where
  transport := transport
  protocols := protocols
  maxConnections := conns
  maxStreamsPerConn := streams
  maxPendingDials := 1
  maxPendingStreamOpens := 1
  eventCapacity := 8
  maxNegotiationSteps := 16
  maxConnections_pos := hconns
  maxStreamsPerConn_pos := hstreams
  maxPendingDials_pos := by decide
  maxPendingStreamOpens_pos := by decide
  maxNegotiationSteps_pos := by decide
  eventCapacity_gt := by decide
  protocolIds := hids

/-- A protocol that does nothing. -/
def silent : Protocol Script where
  id := [1]
  onOpen := fun _ _ => pure ()
  onEvent := none

theorem silent_id : ∀ protocol ∈ [silent], ProtocolId protocol.id := by
  intro protocol hprotocol
  rw [List.mem_singleton.mp hprotocol]
  exact ⟨List.cons_ne_nil _ _, Nat.le_of_ble_eq_true rfl⟩

/-- A host without protocols, with room for one connection with one stream. -/
def narrow : HostConfig Script :=
  config [] 1 1 Nat.one_pos Nat.one_pos fun _ h => absurd h List.not_mem_nil

/-- A host with that protocol, and room for one connection with two streams. -/
def quiet : HostConfig Script := config [silent] 1 2 Nat.one_pos Nat.two_pos silent_id

/-- What a peer sends that agrees to it. -/
def agreement : Bytes := 19 :: multistreamSelectProtocolId ++ [10, 2, 1, 10]

end Script

end LeanLibp2p.Host
