import LeanLibp2p.Quic.Listed

/-!
# Which connections get a turn

The loops of `quic_backend_endpoint_poll` and `quic_backend_endpoint_next_datagram` count positions of
an array that they shrink: a connection that ends takes the last one out of the way of the loop.
-/

namespace LeanLibp2p.Quic

open LeanLibp2p.Lib

/-! ## Polling -/

namespace Timers

variable (timers : Timers) (now : UInt64)

/-- What a round of the poll does with a connection, with so many free places in the queue. -/
def turn (room c : Nat) : Turn :=
  if timers.due now c then
    match timers.handleExpiry now c with
    | .ok () => .stay
    | .error (.endpoint _) => .stop
    | .error .finished => if room = 0 then .stop else .leave
    | .error .violation => if room = 0 then .stop else .stay
  else .stay

/-- The free places after the round. -/
def roomAfter (room c : Nat) : Nat :=
  if timers.due now c then
    match timers.handleExpiry now c with
    | .ok () => room - 1
    | .error _ => room - 2
  else room

/-- The poll comes to the connection at a position: no round before makes it fail, and the array is
    still long enough by then. -/
def Reaches (endpoint : Endpoint) (p : Nat) : Prop :=
  p + leavers (timers.turn now) (timers.roomAfter now) endpoint.room endpoint.connections p <
      endpoint.connections.length ∧
    Proceeds (timers.turn now) (timers.roomAfter now) endpoint.room endpoint.connections p

instance (endpoint : Endpoint) (p : Nat) : Decidable (timers.Reaches now endpoint p) :=
  inferInstanceAs (Decidable (_ ∧ _))

end Timers

namespace Endpoint

variable {endpoint : Endpoint} {timers : Timers} {now : UInt64} {c : Nat}
  {before after : List Nat}

/-- The loop goes on with the connections that are left. -/
structure Goes (timers : Timers) (now : UInt64) (c : Nat) (endpoint : Endpoint)
    (connections : List Nat) (turned : Except QuicErr Unit × Endpoint) : Prop where
  ok : turned.1 = .ok ()
  connections : turned.2.connections = connections
  room : turned.2.room = timers.roomAfter now endpoint.room c

variable (h : endpoint.Listed)

include h

theorem handleConnError_violation (c : Nat) :
    ((endpoint.handleConnError c .violation).1 = .ok () ↔ endpoint.room ≠ 0) ∧
      (endpoint.handleConnError c .violation).2.room = endpoint.room - 1 ∧
      (endpoint.handleConnError c .violation).2.connections = endpoint.connections ∧
      ∀ c', c ≠ c' → (endpoint.handleConnError c .violation).2.conn c' = endpoint.conn c' := by
  obtain ⟨hok, hroom, -⟩ := eventPush_spec (h.closing c).queued .txDatagramReady c
  exact ⟨hok, hroom, eventPush_connections _ _ c, fun c' hne =>
    (eventPush_conn _ _ c c').trans (conn_update_of_ne hne _)⟩

/-- The event that the poll queues, whether there is room or not. -/
theorem txReady_spec (c : Nat) :
    (endpoint.eventPush .txDatagramReady c).2.connections = endpoint.connections ∧
      (endpoint.eventPush .txDatagramReady c).2.room = endpoint.room - 1 :=
  ⟨eventPush_connections _ _ c, (eventPush_spec h.queued .txDatagramReady c).2.1⟩

omit h in
theorem pollTurn_error {error : ConnError} (herror : timers.handleExpiry now c = .error error)
    (hok : (endpoint.handleConnError c error).1 = .ok ()) :
    endpoint.pollTurn timers now c =
      (.ok (), ((endpoint.handleConnError c error).2.eventPush .txDatagramReady c).2) := by
  unfold pollTurn
  rw [herror]
  dsimp only
  rcases hresult : endpoint.handleConnError c error with ⟨result, endpoint'⟩
  rw [hresult] at hok
  obtain rfl : result = .ok () := hok
  rfl

omit h in
theorem pollTurn_fails {error : ConnError} (herror : timers.handleExpiry now c = .error error)
    (hfails : (endpoint.handleConnError c error).1 ≠ .ok ()) :
    (endpoint.pollTurn timers now c).1 ≠ .ok () := by
  unfold pollTurn
  rw [herror]
  dsimp only
  rcases hresult : endpoint.handleConnError c error with ⟨e | u, endpoint'⟩
  · intro heq
    cases heq
  · rw [hresult] at hfails
    exact absurd rfl hfails

/-- A due connection's turn does what `turn` says. -/
theorem pollTurn_spec (hsplit : endpoint.connections = before ++ c :: after)
    (hdue : timers.due now c = true) :
    (timers.turn now endpoint.room c = .stay →
        Goes timers now c endpoint endpoint.connections (endpoint.pollTurn timers now c)) ∧
      (timers.turn now endpoint.room c = .leave →
        Goes timers now c endpoint (before ++ (after.getLast?.toList ++ after.dropLast))
          (endpoint.pollTurn timers now c)) ∧
      (timers.turn now endpoint.room c = .stop → (endpoint.pollTurn timers now c).1 ≠ .ok ()) := by
  unfold Timers.turn
  rw [if_pos hdue]
  cases hanswer : timers.handleExpiry now c with
  | ok u =>
    have hturn : endpoint.pollTurn timers now c =
        (.ok (), (endpoint.eventPush .txDatagramReady c).2) := by
      unfold pollTurn
      rw [hanswer]
    obtain ⟨hconnections, hroom⟩ := txReady_spec h c
    have hafter : timers.roomAfter now endpoint.room c = endpoint.room - 1 := by
      unfold Timers.roomAfter
      rw [if_pos hdue, hanswer]
    rw [hturn]
    exact ⟨fun _ => ⟨rfl, hconnections, hroom.trans hafter.symm⟩, fun heq => (by cases heq),
      fun heq => (by cases heq)⟩
  | error error =>
    have hafter : timers.roomAfter now endpoint.room c = endpoint.room - 2 := by
      unfold Timers.roomAfter
      rw [if_pos hdue, hanswer]
    cases error with
    | endpoint e =>
      exact ⟨fun heq => (by cases heq), fun heq => (by cases heq), fun _ =>
        pollTurn_fails hanswer fun heq => by cases heq⟩
    | finished =>
      obtain ⟨hok, hleft⟩ := markClosed_spec h hsplit
      obtain ⟨hconnections, hroom⟩ := txReady_spec hleft.listed c
      dsimp only
      split
      · rename_i hnone
        exact ⟨fun heq => (by cases heq), fun heq => (by cases heq), fun _ =>
          pollTurn_fails hanswer fun heq => hok.mp heq hnone⟩
      · rename_i hsome
        refine ⟨fun heq => (by cases heq), fun _ => ?_, fun heq => (by cases heq)⟩
        rw [pollTurn_error hanswer (hok.mpr hsome)]
        refine ⟨rfl, hconnections.trans hleft.connections, hroom.trans ?_⟩
        rw [hleft.room, hafter, Nat.sub_sub]
    | violation =>
      obtain ⟨hok, hroomClosing, hsame, -⟩ := handleConnError_violation h c
      obtain ⟨hconnections, hroom⟩ := txReady_spec (h.handleConnError c .violation) c
      dsimp only
      split
      · rename_i hnone
        exact ⟨fun heq => (by cases heq), fun heq => (by cases heq), fun _ =>
          pollTurn_fails hanswer fun heq => hok.mp heq hnone⟩
      · rename_i hsome
        refine ⟨fun _ => ?_, fun heq => (by cases heq), fun heq => (by cases heq)⟩
        rw [pollTurn_error hanswer (hok.mpr hsome)]
        refine ⟨rfl, hconnections.trans hsame, hroom.trans ?_⟩
        rw [hroomClosing, hafter, Nat.sub_sub]

/-- The poll calls ngtcp2 for the due ones of the connections that its loop comes to. -/
theorem pollLoop_visited {rounds index : Nat}
    (hrounds : (endpoint.connections.drop index).length ≤ rounds) :
    (endpoint.pollLoop timers now rounds index).visited =
      (sweep (timers.turn now) (timers.roomAfter now) endpoint.room
        (endpoint.connections.drop index)).filter (timers.due now) := by
  induction rounds generalizing endpoint index with
  | zero =>
    rw [List.length_eq_zero_iff.mp (Nat.le_zero.mp hrounds), sweep_nil]
    rfl
  | succ rounds ih =>
    unfold pollLoop
    cases hget : endpoint.connections[index]? with
    | none =>
      rw [List.drop_eq_nil_of_le (List.getElem?_eq_none_iff.mp hget), sweep_nil]
      rfl
    | some c =>
      obtain ⟨hlt, hc⟩ := List.getElem?_eq_some_iff.mp hget
      have hdrop : endpoint.connections.drop index =
          c :: endpoint.connections.drop (index + 1) := by
        rw [List.drop_eq_getElem_cons hlt, hc]
      have hsplit : endpoint.connections = endpoint.connections.take index ++
          c :: endpoint.connections.drop (index + 1) := by
        rw [← hdrop, List.take_append_drop]
      have hindex : (endpoint.connections.take index).length = index :=
        List.length_take_of_le (Nat.le_of_lt hlt)
      have hlive := h.live c (List.mem_of_getElem? hget)
      rw [hdrop, List.length_cons] at hrounds
      rw [hdrop]
      by_cases hdue : timers.due now c = true
      · obtain ⟨hstay, hleave, hstop⟩ := pollTurn_spec h hsplit hdue
        have hlisted := h.pollTurn timers now c
        dsimp only
        rw [if_pos ⟨hlive, hdue⟩]
        rcases hturned : endpoint.pollTurn timers now c with ⟨result, endpoint'⟩
        rw [hturned] at hstay hleave hstop hlisted
        cases hturn : timers.turn now endpoint.room c with
        | stay =>
          obtain ⟨hok, hconnections, hroom⟩ := hstay hturn
          obtain rfl : result = .ok () := hok
          obtain hconnections : endpoint'.connections = endpoint.connections := hconnections
          rw [sweep_stay hturn, List.filter_cons_of_pos hdue, ← hroom, ← hconnections]
          refine congrArg (List.cons c) (ih hlisted ?_)
          rw [hconnections]
          omega
        | leave =>
          obtain ⟨hok, hconnections, hroom⟩ := hleave hturn
          obtain rfl : result = .ok () := hok
          have hrest : endpoint'.connections.drop (index + 1) =
              (endpoint.connections.drop (index + 1)).dropLast := by
            have hgap := drop_gap (endpoint.connections.take index)
              (endpoint.connections.drop (index + 1))
            rw [hindex] at hgap
            exact (congrArg (List.drop (index + 1)) hconnections).trans hgap
          rw [sweep_leave hturn, List.filter_cons_of_pos hdue, ← hroom, ← hrest]
          refine congrArg (List.cons c) (ih hlisted ?_)
          rw [hrest, List.length_dropLast]
          omega
        | stop =>
          rw [sweep_stop hturn, List.filter_cons_of_pos hdue, List.filter_nil]
          cases result with
          | error e => rfl
          | ok u => exact absurd rfl (hstop hturn)
      · have hturn : timers.turn now endpoint.room c = .stay := if_neg hdue
        have hafter : timers.roomAfter now endpoint.room c = endpoint.room := if_neg hdue
        dsimp only
        rw [if_neg fun hcond => hdue hcond.2, sweep_stay hturn,
          List.filter_cons_of_neg hdue, hafter]
        exact ih h (by omega)

theorem poll_visited : (endpoint.poll timers now).visited =
    (sweep (timers.turn now) (timers.roomAfter now) endpoint.room endpoint.connections).filter
      (timers.due now) := by
  have hvalid : endpoint.validate = .ok () := by simp [validate, h.isOpen]
  unfold poll
  rw [hvalid]
  dsimp only
  have hloop : (endpoint.pollLoop timers now endpoint.connections.length 0).visited = _ :=
    pollLoop_visited h (Nat.le_refl _)
  rwa [List.drop_zero] at hloop

/-- The poll handles an expiry when it is due and the loop comes to the connection. -/
theorem mem_poll_visited : c ∈ (endpoint.poll timers now).visited ↔
    timers.due now c = true ∧
      ∃ p, endpoint.connections[p]? = some c ∧ timers.Reaches now endpoint p := by
  rw [poll_visited h, List.mem_filter, mem_sweep]
  exact and_comm

theorem poll_visited_nodup :
    (endpoint.poll timers now).visited.Nodup := by
  rw [poll_visited h]
  exact (sweep_nodup h.nodup).filter _

/-- Every live connection that is due was handled once. -/
def Fires (endpoint : Endpoint) (timers : Timers) (now : UInt64) (visited : List Nat) : Prop :=
  ∀ c ∈ endpoint.connections, (endpoint.conn c).state.live = true → timers.due now c = true →
    visited.count c = 1

instance (endpoint : Endpoint) (timers : Timers) (now : UInt64) (visited : List Nat) :
    Decidable (endpoint.Fires timers now visited) :=
  inferInstanceAs (Decidable (∀ c ∈ endpoint.connections, _ → _ → _))

/-- The poll handles all that is due as far as it comes to all that is due. -/
theorem fires_iff :
    endpoint.Fires timers now (endpoint.poll timers now).visited ↔
      ∀ p c, endpoint.connections[p]? = some c → timers.due now c = true →
        timers.Reaches now endpoint p := by
  have hnodup := @poll_visited_nodup endpoint timers now h
  constructor
  · intro hfires p c hget hdue
    have hmem := List.mem_of_getElem? hget
    have hcount := hfires c hmem (h.live c hmem) hdue
    have hvisited : c ∈ (endpoint.poll timers now).visited :=
      List.count_pos_iff.mp (by omega)
    obtain ⟨-, q, hq, hreaches⟩ := (mem_poll_visited h).mp hvisited
    obtain rfl : p = q := (List.getElem?_inj (List.getElem?_eq_some_iff.mp hget).1 h.nodup).mp
      (hget.trans hq.symm)
    exact hreaches
  · intro hreaches c hc _ hdue
    obtain ⟨p, hget⟩ := List.mem_iff_getElem?.mp hc
    exact List.count_eq_one_of_mem hnodup
      ((mem_poll_visited h).mpr ⟨hdue, p, hget, hreaches p c hget hdue⟩)

end Endpoint

/-! ## Sending -/

/-- The write fails so that the connection is over. -/
def Writes.Ends (writes : Writes) (endpoint : Endpoint) (c : Nat) : Prop :=
  (endpoint.conn c).closeRequested = false ∧
    writes.stream c (endpoint.conn c).nextTx.1 = .failed .finished

instance (writes : Writes) (endpoint : Endpoint) (c : Nat) : Decidable (writes.Ends endpoint c) :=
  inferInstanceAs (Decidable (_ ∧ _))

namespace Endpoint

variable {endpoint endpoint' : Endpoint} {writes : Writes} {c : Nat} {before after : List Nat}

/-- The connection at a turn. -/
def atTurn (endpoint : Endpoint) (start k : Nat) : Nat :=
  endpoint.connections.getD ((start + k) % endpoint.connections.length) 0

variable (h : endpoint.Listed)

include h

/-- A turn after which the loop goes on and the connection did not end. -/
theorem writeConnDatagram_stays (hends : ¬ writes.Ends endpoint c)
    (hblock : (endpoint.writeConnDatagram writes c).1 = .error .wouldBlock) :
    (endpoint.writeConnDatagram writes c).2.connections = endpoint.connections ∧
      ∀ c', c ≠ c' →
        (endpoint.writeConnDatagram writes c).2.conn c' = endpoint.conn c' := by
  unfold writeConnDatagram at hblock ⊢
  by_cases hclose : (endpoint.conn c).closeRequested = true
  · rw [if_pos hclose] at hblock ⊢
    rcases hanswer : writes.close c with e | wrote
    · exact ⟨rfl, fun c' _ => rfl⟩
    · cases wrote with
      | false => exact ⟨rfl, fun c' _ => rfl⟩
      | true =>
        rw [hanswer] at hblock
        cases hblock
  · rw [if_neg hclose] at hblock ⊢
    dsimp only at hblock ⊢
    have hmoved := h.picked c
    have hothers : ∀ c', c ≠ c' →
        (endpoint.update c fun conn => conn.nextTx.2).conn c' = endpoint.conn c' :=
      fun c' hne => conn_update_of_ne hne _
    cases hanswer : writes.stream c (endpoint.conn c).nextTx.1 with
    | written dataLen =>
      rw [hanswer] at hblock
      dsimp only at hblock
      split at hblock
      · cases hblock
      · cases hblock
    | blocked => exact ⟨rfl, hothers⟩
    | failed error =>
      dsimp only
      cases error with
      | endpoint e => exact ⟨rfl, hothers⟩
      | finished => exact absurd ⟨Bool.eq_false_iff.mpr hclose, hanswer⟩ hends
      | violation =>
        obtain ⟨-, -, hconnections, hconn⟩ := handleConnError_violation hmoved c
        rcases hresult : (endpoint.update c fun conn => conn.nextTx.2).handleConnError c
          .violation with ⟨e | u, endpoint'⟩
        · rw [hresult] at hconnections hconn
          exact ⟨hconnections, fun c' hne => (hconn c' hne).trans (hothers c' hne)⟩
        · rw [hresult] at hconnections hconn
          exact ⟨hconnections, fun c' hne => (hconn c' hne).trans (hothers c' hne)⟩

/-- A turn that ends the connection. -/
theorem writeConnDatagram_ends (hsplit : endpoint.connections = before ++ c :: after)
    (hends : writes.Ends endpoint c) :
    Left endpoint before after (endpoint.writeConnDatagram writes c).2 := by
  obtain ⟨hclose, hanswer⟩ := hends
  have hleft := (markClosed_spec (h.picked c) hsplit).2
  have hsame : Left endpoint before after
      ((endpoint.update c fun conn => conn.nextTx.2).handleConnError c .finished).2 :=
    ⟨hleft.listed, hleft.connections, hleft.room⟩
  unfold writeConnDatagram
  rw [if_neg (Bool.eq_false_iff.mp hclose)]
  dsimp only
  rw [hanswer]
  dsimp only
  rcases hresult : (endpoint.update c fun conn => conn.nextTx.2).handleConnError c .finished with
    ⟨e | u, endpoint'⟩
  · rwa [hresult] at hsame
  · rwa [hresult] at hsame

/-- No turn adds a connection. -/
theorem writeConnDatagram_length (hmem : c ∈ endpoint.connections)
    (hblock : (endpoint.writeConnDatagram writes c).1 = .error .wouldBlock) :
    (endpoint.writeConnDatagram writes c).2.connections.length ≤ endpoint.connections.length := by
  by_cases hends : writes.Ends endpoint c
  · obtain ⟨before, after, hsplit⟩ := List.append_of_mem hmem
    rw [(writeConnDatagram_ends h hsplit hends).connections, length_gap, hsplit]
    simp
  · rw [(writeConnDatagram_stays h hends hblock).1]

omit h in
theorem atTurn_mem (hne : endpoint.connections.length ≠ 0) (start k : Nat) :
    endpoint.atTurn start k ∈ endpoint.connections := by
  have hlt := Nat.mod_lt (start + k) (Nat.pos_of_ne_zero hne)
  rw [atTurn, List.getD_eq_getElem _ _ hlt]
  exact List.getElem_mem hlt

/-- A turn of the loop that goes on. -/
theorem datagramLoop_succ {start rounds index : Nat} (hlt : index < endpoint.connections.length) :
    ((endpoint.writeConnDatagram writes (endpoint.atTurn start index)).1 ≠ .error .wouldBlock ∧
        ∃ result, result ≠ .error .wouldBlock ∧ ∃ last, endpoint.datagramLoop writes start
          (rounds + 1) index = ⟨result, last, [endpoint.atTurn start index]⟩) ∨
      ((endpoint.writeConnDatagram writes (endpoint.atTurn start index)).1 =
          .error .wouldBlock ∧
        endpoint.datagramLoop writes start (rounds + 1) index =
          ((endpoint.writeConnDatagram writes (endpoint.atTurn start index)).2.datagramLoop writes
            start rounds (index + 1)).after (endpoint.atTurn start index)) := by
  have hlive := h.live _ (atTurn_mem (Nat.ne_of_gt (Nat.zero_lt_of_lt hlt)) start index)
  rw [datagramLoop, if_neg (Nat.not_le_of_lt hlt)]
  dsimp only
  rw [show endpoint.connections.getD ((start + index) % endpoint.connections.length) 0 =
    endpoint.atTurn start index from rfl, if_pos hlive]
  rcases endpoint.writeConnDatagram writes (endpoint.atTurn start index) with ⟨e | u, endpoint'⟩
  · cases e with
    | wouldBlock => exact .inr ⟨rfl, rfl⟩
    | _ => exact .inl ⟨fun heq => (by cases heq), _, fun heq => (by cases heq), _, rfl⟩
  · exact .inl ⟨fun heq => (by cases heq), _, fun heq => (by cases heq), _, rfl⟩

/-- Each turn takes a position. -/
theorem datagramLoop_length {start rounds index : Nat} :
    (endpoint.datagramLoop writes start rounds index).visited.length ≤
      endpoint.connections.length - index := by
  induction rounds generalizing endpoint index with
  | zero => exact Nat.zero_le _
  | succ rounds ih =>
    by_cases hlt : index < endpoint.connections.length
    · rcases @datagramLoop_succ endpoint writes h start rounds index hlt with
        ⟨-, result, -, last, hloop⟩ | ⟨hblock, hloop⟩
      · rw [hloop]
        change 1 ≤ _
        omega
      · have hmem := atTurn_mem (Nat.ne_of_gt (Nat.zero_lt_of_lt hlt)) start index
        have hturn := h.writeConnDatagram writes (endpoint.atTurn start index)
        have hlength := writeConnDatagram_length h hmem hblock
        have hrest := @ih _ hturn (index + 1)
        rw [hloop]
        change _ + 1 ≤ _
        omega
    · rw [datagramLoop, if_pos (Nat.le_of_not_lt hlt)]
      exact Nat.zero_le _

/-- Two turns of one round over the array are for different connections. -/
theorem atTurn_inj {start j k : Nat} (hj : j < endpoint.connections.length)
    (hk : k < endpoint.connections.length)
    (heq : endpoint.atTurn start j = endpoint.atTurn start k) : j = k := by
  have hpos : 0 < endpoint.connections.length := Nat.zero_lt_of_lt hj
  unfold atTurn at heq
  rw [List.getD_eq_getElem _ _ (Nat.mod_lt _ hpos), List.getD_eq_getElem _ _ (Nat.mod_lt _ hpos)]
    at heq
  have hmod : start + j ≡ start + k [MOD endpoint.connections.length] :=
    (List.Nodup.getElem_inj_iff h.nodup).mp heq
  exact Nat.ModEq.eq_of_lt_of_lt (Nat.ModEq.add_left_cancel' start hmod) hj hk

omit h

/-- A round over the array comes to each connection. -/
theorem exists_atTurn {start : Nat} (hstart : start < endpoint.connections.length)
    (hmem : c ∈ endpoint.connections) :
    ∃ k, k < endpoint.connections.length ∧ endpoint.atTurn start k = c := by
  obtain ⟨i, hi, hget⟩ := List.mem_iff_getElem.mp hmem
  have hat : ∀ k, (start + k) % endpoint.connections.length = i →
      endpoint.atTurn start k = c := by
    intro k hk
    rw [atTurn, hk, List.getD_eq_getElem _ _ hi, hget]
  by_cases hle : start ≤ i
  · refine ⟨i - start, by omega, hat _ ?_⟩
    rw [Nat.add_sub_cancel' hle, Nat.mod_eq_of_lt hi]
  · refine ⟨i + endpoint.connections.length - start, by omega, hat _ ?_⟩
    rw [Nat.add_sub_cancel' (by omega), Nat.add_mod_right, Nat.mod_eq_of_lt hi]

/-- No connection ended before this round of the loop. -/
structure Untouched (endpoint : Endpoint) (start index : Nat) (endpoint' : Endpoint) : Prop where
  listed : endpoint'.Listed
  connections : endpoint'.connections = endpoint.connections
  conn : ∀ k, index ≤ k → k < endpoint.connections.length →
    endpoint'.conn (endpoint.atTurn start k) = endpoint.conn (endpoint.atTurn start k)

namespace Untouched

variable {start index rounds : Nat}

theorem atTurn (h : Untouched endpoint start index endpoint') (k : Nat) :
    endpoint'.atTurn start k = endpoint.atTurn start k := by
  rw [Endpoint.atTurn, h.connections, Endpoint.atTurn]

theorem ends_iff (h : Untouched endpoint start index endpoint')
    (hlt : index < endpoint.connections.length) :
    writes.Ends endpoint' (endpoint.atTurn start index) ↔
      writes.Ends endpoint (endpoint.atTurn start index) := by
  rw [Writes.Ends, h.conn index (Nat.le_refl _) hlt, Writes.Ends]

/-- A turn that ends no connection and is followed by another. -/
theorem next (hlisted : endpoint.Listed) (h : Untouched endpoint start index endpoint')
    (hlt : index < endpoint.connections.length)
    (hends : ¬ writes.Ends endpoint (endpoint.atTurn start index))
    (hblock : (endpoint'.writeConnDatagram writes (endpoint.atTurn start index)).1 =
      .error .wouldBlock) :
    Untouched endpoint start (index + 1)
      (endpoint'.writeConnDatagram writes (endpoint.atTurn start index)).2 := by
  have hturn := h.listed.writeConnDatagram writes (endpoint.atTurn start index)
  obtain ⟨hconnections, hconn⟩ := writeConnDatagram_stays h.listed
    (fun hends' => hends ((h.ends_iff hlt).mp hends')) hblock
  refine ⟨hturn, hconnections.trans h.connections, fun k hk hklt => ?_⟩
  have hne : endpoint.atTurn start index ≠ endpoint.atTurn start k := by
    intro heq
    have hsame := atTurn_inj hlisted hlt hklt heq
    omega
  exact (hconn _ hne).trans (h.conn k (by omega) hklt)

/-- A turn that is not the last. -/
theorem succ (hlisted : endpoint.Listed) (h : Untouched endpoint start index endpoint')
    (hlt : index < endpoint.connections.length)
    (hresult : (endpoint'.datagramLoop writes start (rounds + 1) index).result =
      .error .wouldBlock) :
    ∃ next, endpoint'.datagramLoop writes start (rounds + 1) index =
        (next.datagramLoop writes start rounds (index + 1)).after (endpoint.atTurn start index) ∧
      (¬ writes.Ends endpoint (endpoint.atTurn start index) →
        Untouched endpoint start (index + 1) next) ∧
      (writes.Ends endpoint (endpoint.atTurn start index) →
        next.Listed ∧ next.connections.length + 1 = endpoint.connections.length) := by
  have hlt' : index < endpoint'.connections.length := h.connections ▸ hlt
  have hmem := atTurn_mem (Nat.ne_of_gt (Nat.zero_lt_of_lt hlt')) start index
  rcases @datagramLoop_succ endpoint' writes h.listed start rounds index hlt' with
    ⟨-, result, hother, last, hloop⟩ | ⟨hblock, hloop⟩
  · rw [hloop] at hresult
    exact absurd hresult hother
  have hturn := h.listed.writeConnDatagram writes (endpoint.atTurn start index)
  rw [h.atTurn] at hloop hblock hmem
  refine ⟨_, hloop, fun hends => ?_, fun hends => ?_⟩
  · exact h.next hlisted hlt hends hblock
  · obtain ⟨before, after, hsplit⟩ := List.append_of_mem hmem
    refine ⟨hturn, ?_⟩
    have hleft := writeConnDatagram_ends h.listed hsplit ((h.ends_iff hlt).mpr hends)
    rw [hleft.connections, length_gap, ← h.connections, hsplit]
    simp only [List.length_append, List.length_cons]
    omega

/-- Without a connection that ends, all get their turn. -/
theorem all (hlisted : endpoint.Listed) (h : Untouched endpoint start index endpoint')
    (hresult : (endpoint'.datagramLoop writes start rounds index).result = .error .wouldBlock)
    (hrounds : endpoint.connections.length ≤ index + rounds)
    (hends : ∀ k, index ≤ k → k + 1 < endpoint.connections.length →
      ¬ writes.Ends endpoint (endpoint.atTurn start k)) {k : Nat} (hk : index ≤ k)
    (hlt : k < endpoint.connections.length) :
    endpoint.atTurn start k ∈ (endpoint'.datagramLoop writes start rounds index).visited := by
  induction rounds generalizing endpoint' index with
  | zero => omega
  | succ rounds ih =>
    obtain ⟨next, hloop, hstays, -⟩ := h.succ hlisted (Nat.lt_of_le_of_lt hk hlt) hresult
    rw [hloop] at hresult ⊢
    rcases Nat.eq_or_lt_of_le hk with rfl | hk
    · exact List.mem_cons_self
    · exact List.mem_cons_of_mem _ (ih (hstays (hends index (Nat.le_refl _) (by omega))) hresult
        (by omega) (fun j hj => hends j (by omega)) hk)

/-- With one that ends before the last turn, there are fewer turns than connections. -/
theorem fewer (hlisted : endpoint.Listed) (h : Untouched endpoint start index endpoint')
    (hresult : (endpoint'.datagramLoop writes start rounds index).result = .error .wouldBlock)
    (hrounds : endpoint.connections.length ≤ index + rounds) {k : Nat} (hk : index ≤ k)
    (hlt : k + 1 < endpoint.connections.length)
    (hends : writes.Ends endpoint (endpoint.atTurn start k)) :
    (endpoint'.datagramLoop writes start rounds index).visited.length + index <
      endpoint.connections.length := by
  induction rounds generalizing endpoint' index with
  | zero => omega
  | succ rounds ih =>
    obtain ⟨next, hloop, hstays, hleaves⟩ := h.succ hlisted (by omega) hresult
    rw [hloop] at hresult ⊢
    change _ + 1 + index < _
    by_cases hends' : writes.Ends endpoint (endpoint.atTurn start index)
    · obtain ⟨hnext, hlength⟩ := hleaves hends'
      have hturns := @datagramLoop_length next writes hnext start rounds (index + 1)
      omega
    · have hne : index ≠ k := fun heq => hends' (heq ▸ hends)
      have hrest := ih (hstays hends') hresult (by omega) (by omega)
      omega

end Untouched

/-- Every live connection got a turn. -/
def Offered (endpoint : Endpoint) (visited : List Nat) : Prop :=
  ∀ c ∈ endpoint.connections, (endpoint.conn c).state.live = true → c ∈ visited

instance (endpoint : Endpoint) (visited : List Nat) : Decidable (endpoint.Offered visited) :=
  inferInstanceAs (Decidable (∀ c ∈ endpoint.connections, _ → _))

/-- What `nextDatagram` does when there is room for a datagram. -/
theorem nextDatagram_eq (h : endpoint.Listed) {dataCap : Nat}
    (hcap : minInitialDatagramBytes ≤ dataCap) (writes : Writes) :
    ∃ first, Untouched endpoint endpoint.firstTurn 0 first ∧
      endpoint.nextDatagram writes dataCap =
        first.datagramLoop writes endpoint.firstTurn endpoint.connections.length 0 := by
  let first : Endpoint := { endpoint with lastTxConn := none }
  have hfirst : first.Listed :=
    ⟨h.nodup, h.allocated, h.registered, h.live, h.queued, h.isOpen⟩
  have hvalid : first.validate = .ok () := by simp [validate, first, h.isOpen]
  refine ⟨first, ⟨hfirst, rfl, fun k _ _ => rfl⟩, ?_⟩
  unfold nextDatagram
  dsimp only
  rw [show validate _ = _ from hvalid]
  dsimp only
  rw [if_neg (Nat.not_lt_of_le hcap)]
  rfl

theorem nextDatagram_small (h : endpoint.Listed) {dataCap : Nat}
    (hcap : dataCap < minInitialDatagramBytes) (writes : Writes) :
    (endpoint.nextDatagram writes dataCap).result = .error .bufTooSmall := by
  have hvalid : ({ endpoint with lastTxConn := none } : Endpoint).validate = .ok () := by
    simp [validate, h.isOpen]
  unfold nextDatagram
  dsimp only
  rw [hvalid]
  dsimp only
  rw [if_pos hcap]

theorem firstTurn_lt (hpos : 0 < endpoint.connections.length) :
    endpoint.firstTurn < endpoint.connections.length := by
  unfold firstTurn
  split
  · assumption
  · exact hpos

/-- All get their turn as long as none but the last one ends by it. -/
theorem offered_iff (h : endpoint.Listed) {dataCap : Nat}
    (hresult : (endpoint.nextDatagram writes dataCap).result = .error .wouldBlock) :
    endpoint.Offered (endpoint.nextDatagram writes dataCap).visited ↔
      ∀ k, k + 1 < endpoint.connections.length →
        ¬ writes.Ends endpoint (endpoint.atTurn endpoint.firstTurn k) := by
  have hcap : minInitialDatagramBytes ≤ dataCap := by
    by_contra hcap
    rw [nextDatagram_small h (Nat.lt_of_not_le hcap)] at hresult
    cases hresult
  obtain ⟨first, huntouched, hrun⟩ := nextDatagram_eq h hcap writes
  rw [hrun] at hresult ⊢
  constructor
  · intro hoffered k hlt hends
    have hfewer := huntouched.fewer h hresult (Nat.le_add_left _ _) (Nat.zero_le k) hlt hends
    have hsub : endpoint.connections ⊆
        (first.datagramLoop writes endpoint.firstTurn endpoint.connections.length 0).visited :=
      fun c hc => hoffered c hc (h.live c hc)
    have hlength := (List.subperm_of_subset h.nodup hsub).length_le
    omega
  · intro hends c hc _
    obtain ⟨k, hlt, rfl⟩ := exists_atTurn (firstTurn_lt (List.length_pos_of_mem hc)) hc
    exact huntouched.all h hresult (Nat.le_add_left _ _) (fun k _ => hends k) (Nat.zero_le k) hlt

end Endpoint

/-! ## Both loops -/

namespace TimedEndpoint

/-- A poll that succeeds handles every expiry that is due, once, exactly when its loop comes to all
    of them; and a search for a datagram that finds none offers every connection a turn exactly when
    none but the last one ends by its turn. -/
theorem turns_iff {peerIdValid : Bytes → Bool} {timed : TimedEndpoint}
    (h : timed.Reachable peerIdValid) (timers : Timers) (nowUs : UInt64) (writes : Writes)
    (dataCap : Nat) :
    ((timed.poll timers nowUs).result = .ok () →
      (timed.endpoint.Fires timers (timed.clock.toNgtcp2 nowUs) (timed.poll timers nowUs).visited ↔
        ∀ p c, timed.endpoint.connections[p]? = some c →
          timers.due (timed.clock.toNgtcp2 nowUs) c = true →
            timers.Reaches (timed.clock.toNgtcp2 nowUs) timed.endpoint p)) ∧
    ((timed.endpoint.nextDatagram writes dataCap).result = .error .wouldBlock →
      (timed.endpoint.Offered (timed.endpoint.nextDatagram writes dataCap).visited ↔
        ∀ k, k + 1 < timed.endpoint.connections.length →
          ¬ writes.Ends timed.endpoint (timed.endpoint.atTurn timed.endpoint.firstTurn k))) :=
  ⟨fun _ => Endpoint.fires_iff (reachable_listed h),
    fun hresult => Endpoint.offered_iff (reachable_listed h) hresult⟩

/-- Two connections were dialed. -/
def twoDialed : TimedEndpoint :=
  runFrom (step fun _ => true) (start AuthRun.sampleConfig 8)
    [.call (.dial peerAddr {}), .call (.dial peerAddr {})]

/-- Both are due, and what handling the first one is answered. -/
def bothDue (answer : Except ConnError Unit) : Timers where
  expiry _ := 0
  handleExpiry _ c := if c = 0 then answer else .ok ()

/-- Neither is closing, and what writing for the first one is answered. -/
def firstWrites (answer : WriteAnswer) : Writes where
  close _ := .ok false
  stream c _ := if c = 0 then answer else .blocked

theorem turns_iff_both :
    twoDialed.endpoint.Fires (bothDue (.ok ())) (twoDialed.clock.toNgtcp2 5)
        (twoDialed.poll (bothDue (.ok ())) 5).visited ∧
      twoDialed.endpoint.Offered
        (twoDialed.endpoint.nextDatagram (firstWrites .blocked) 1500).visited :=
  have hturns := @turns_iff (fun _ => true) twoDialed ⟨_, _, _, rfl⟩ (bothDue (.ok ())) 5
    (firstWrites .blocked) 1500
  have hposition : ∀ p, p < 2 →
      (bothDue (.ok ())).Reaches (twoDialed.clock.toNgtcp2 5) twoDialed.endpoint p := by
    decide +kernel
  ⟨(hturns.1 (by decide +kernel)).mpr fun p _ hget _ =>
      hposition p (List.getElem?_eq_some_iff.mp hget).1,
    (hturns.2 (by decide +kernel)).mpr fun k hk hends => by
      have hstays : ¬ (firstWrites .blocked).Ends twoDialed.endpoint
          (twoDialed.endpoint.atTurn twoDialed.endpoint.firstTurn 0) := by decide +kernel
      have hzero : k = 0 := by
        have htwo : twoDialed.endpoint.connections.length = 2 := by decide +kernel
        omega
      exact hstays (hzero ▸ hends)⟩

/-- The first of two due connections goes idle: the second is moved into its place, behind the loop,
    and is not polled. The first of two connections fails to write: the second is not offered. -/
theorem not_all_turns :
    (¬ ∀ timed : TimedEndpoint, timed.Reachable (fun _ => true) → ∀ (timers : Timers)
      (nowUs : UInt64), (timed.poll timers nowUs).result = .ok () →
        timed.endpoint.Fires timers (timed.clock.toNgtcp2 nowUs)
          (timed.poll timers nowUs).visited) ∧
    ¬ ∀ timed : TimedEndpoint, timed.Reachable (fun _ => true) → ∀ (writes : Writes)
      (dataCap : Nat), (timed.endpoint.nextDatagram writes dataCap).result = .error .wouldBlock →
        timed.endpoint.Offered (timed.endpoint.nextDatagram writes dataCap).visited := by
  constructor
  · intro hall
    have hfires := hall twoDialed ⟨_, _, _, rfl⟩ (bothDue (.error .finished)) 5
      (by decide +kernel)
    exact absurd hfires (by decide +kernel)
  · intro hall
    have hoffered := hall twoDialed ⟨_, _, _, rfl⟩ (firstWrites (.failed .finished)) 1500
      (by decide +kernel)
    exact absurd hoffered (by decide +kernel)

end TimedEndpoint

end LeanLibp2p.Quic
