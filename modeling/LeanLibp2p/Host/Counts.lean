import LeanLibp2p.Host.Steps

/-!
# Reference counts

`stream_count` and `open_count` of a connection are the numbers of the streams and opens that point
to it, whichever way these come and go. So a slot that is idle is one that nothing refers to, and a
connection that is below its limit finds a free stream slot.
-/

namespace LeanLibp2p.Host

open LeanLibp2p.Lib

variable {τ : Type} {config : HostConfig τ} {host : LeanLibp2p.Host}

/-- The connection that a stream slot points to. -/
def streamConn (stream : Stream) : Option Nat :=
  if stream.state = .free then none else some stream.conn

/-- The connection that an open points to. -/
def openConn (streamOpen : StreamOpen) : Option Nat :=
  if streamOpen.state = .free then none else some streamOpen.conn

theorem streamConn_of_used {stream : Stream} (h : stream.state ≠ .free) :
    streamConn stream = some stream.conn := if_neg h

theorem openConn_of_used {streamOpen : StreamOpen} (h : streamOpen.state ≠ .free) :
    openConn streamOpen = some streamOpen.conn := if_neg h

theorem used_of_streamConn {stream : Stream} {i : Nat} (h : streamConn stream = some i) :
    stream.state ≠ .free ∧ stream.conn = i := by
  unfold streamConn at h
  split at h
  · cases h
  · rename_i hused
    exact ⟨hused, Option.some.inj h⟩

theorem used_of_openConn {streamOpen : StreamOpen} {i : Nat} (h : openConn streamOpen = some i) :
    streamOpen.state ≠ .free ∧ streamOpen.conn = i := by
  unfold openConn at h
  split at h
  · cases h
  · rename_i hused
    exact ⟨hused, Option.some.inj h⟩

/-- The number of slots that point to a connection. -/
def refs {α : Type} (n : Nat) (conn : α → Option Nat) (slots : Nat → α) (i : Nat) : Nat :=
  (List.range n).countP fun j => conn (slots j) == some i

section Refs

variable {α : Type} {n : Nat} {conn : α → Option Nat} {slots : Nat → α}

theorem refs_update {j : Nat} (x : α) (hj : j < n) (i : Nat) :
    refs n conn (Function.update slots j x) i + (if conn (slots j) = some i then 1 else 0) =
      refs n conn slots i + (if conn x = some i then 1 else 0) := by
  have h := countP_update (fun y => conn y == some i) slots x hj
  have hnat : ∀ y, ((conn y == some i) : Bool).toNat = if conn y = some i then 1 else 0 := by
    intro y
    by_cases hy : conn y = some i <;> simp [hy]
  rw [hnat, hnat] at h
  exact h

/-- A slot that points where it did counts where it did. -/
theorem refs_update_same {j : Nat} {x : α} (h : conn x = conn (slots j)) (i : Nat) :
    refs n conn (Function.update slots j x) i = refs n conn slots i := by
  unfold refs
  congr 1
  funext k
  by_cases hk : k = j
  · rw [hk, Function.update_self, h]
  · rw [Function.update_of_ne hk]

theorem refs_pos {j i : Nat} (hj : j < n) (h : conn (slots j) = some i) :
    0 < refs n conn slots i := by
  unfold refs
  rw [List.countP_pos_iff]
  exact ⟨j, List.mem_range.mpr hj, by simp [h]⟩

/-- The number of slots that point to a connection below `m`. -/
def refsBelow (n : Nat) (conn : α → Option Nat) (slots : Nat → α) (m : Nat) : Nat :=
  (List.range n).countP fun j => (conn (slots j)).any fun i => decide (i < m)

theorem refsBelow_succ (m : Nat) :
    refsBelow n conn slots (m + 1) = refsBelow n conn slots m + refs n conn slots m := by
  unfold refsBelow refs
  induction List.range n with
  | nil => rfl
  | cons j js ih =>
    rw [List.countP_cons, List.countP_cons, List.countP_cons, ih]
    cases hconn : conn (slots j) with
    | none => simp
    | some i =>
      have hone : (if i < m + 1 then 1 else 0) = (if i < m then 1 else 0) + if i = m then 1 else 0 := by
        by_cases hlt : i < m
        · rw [if_pos hlt, if_pos (by omega), if_neg (by omega)]
        · by_cases heq : i = m
          · rw [if_neg hlt, if_pos heq, if_pos (by omega)]
          · rw [if_neg hlt, if_neg heq, if_neg (by omega)]
      simp only [Option.any_some, decide_eq_true_eq, beq_iff_eq, Option.some.injEq, hone]
      omega

/-- Where every connection has at most `k` references, and one of them fewer, there are not `m * k`
    of them. -/
theorem refsBelow_le {m k : Nat} (h : ∀ i < m, refs n conn slots i ≤ k) :
    refsBelow n conn slots m ≤ m * k ∧
      ∀ i < m, refsBelow n conn slots m + k ≤ m * k + refs n conn slots i := by
  induction m with
  | zero =>
    refine ⟨?_, fun i hi => absurd hi (Nat.not_lt_zero i)⟩
    unfold refsBelow
    simp
  | succ m ih =>
    rcases ih fun i hi => h i (Nat.lt_succ_of_lt hi) with ⟨hall, hone⟩
    have hlast := h m (Nat.lt_succ_self m)
    rw [refsBelow_succ, Nat.succ_mul]
    refine ⟨by omega, fun i hi => ?_⟩
    rcases Nat.lt_succ_iff_lt_or_eq.mp hi with hlt | rfl
    · have := hone i hlt
      omega
    · omega

/-- Slots that all are in use. -/
theorem refsBelow_full {m : Nat} (h : ∀ j < n, ∃ i < m, conn (slots j) = some i) :
    refsBelow n conn slots m = n := by
  unfold refsBelow
  have hall : ∀ j ∈ List.range n, (conn (slots j)).any (fun i => decide (i < m)) = true := by
    intro j hj
    rcases h j (List.mem_range.mp hj) with ⟨i, hi, hconn⟩
    rw [hconn]
    simpa using hi
  rw [List.countP_eq_length.mpr hall, List.length_range]

end Refs

/-! ## The counts -/

/-- The counts of the connections, and what they count. -/
structure Counted (config : HostConfig τ) (host : LeanLibp2p.Host) : Prop where
  streamCount : ∀ i, (host.conns i).streamCount =
    refs config.streamCapacity streamConn host.streams i
  openCount : ∀ i, (host.conns i).openCount =
    refs config.maxPendingStreamOpens openConn host.opens i
  streamSlot : ∀ s, (host.streams s).state ≠ .free → s < config.streamCapacity
  openSlot : ∀ o, (host.opens o).state ≠ .free → o < config.maxPendingStreamOpens
  connSlot : ∀ i, (host.conns i).active = true → i < config.maxConnections
  streamActive : ∀ s, (host.streams s).state ≠ .free →
    (host.conns (host.streams s).conn).active = true
  openActive : ∀ o, (host.opens o).state ≠ .free → (host.conns (host.opens o).conn).active = true
  streamLimit : ∀ i, (host.conns i).streamCount ≤ config.maxStreamsPerConn

namespace Counted

/-- Before anything happened. -/
theorem started : Counted config started where
  streamCount := fun _ => (List.countP_eq_zero.mpr fun _ _ => by simp [streamConn, Host.started]).symm
  openCount := fun _ => (List.countP_eq_zero.mpr fun _ _ => by simp [openConn, Host.started]).symm
  streamSlot := fun _ h => absurd rfl h
  openSlot := fun _ h => absurd rfl h
  connSlot := fun _ h => by cases h
  streamActive := fun _ h => absurd rfl h
  openActive := fun _ h => absurd rfl h
  streamLimit := fun _ => Nat.zero_le _

variable (h : Counted config host)

include h

/-- Only the tables matter. -/
theorem congr {host' : LeanLibp2p.Host} (hconns : host'.conns = host.conns)
    (hstreams : host'.streams = host.streams) (hopens : host'.opens = host.opens) :
    Counted config host' := by
  rcases host' with ⟨_, conns, streams, _, opens⟩
  cases hconns
  cases hstreams
  cases hopens
  exact ⟨h.streamCount, h.openCount, h.streamSlot, h.openSlot, h.connSlot, h.streamActive,
    h.openActive, h.streamLimit⟩

/-- A free stream slot is left by a connection below its limit. -/
theorem exists_freeStream {i : Nat} (hactive : (host.conns i).active = true)
    (hcount : (host.conns i).streamCount < config.maxStreamsPerConn) :
    ∃ s, freeStream config host = some s := by
  by_contra hnone
  have hfull : ∀ s < config.streamCapacity, ∃ j < config.maxConnections,
      streamConn (host.streams s) = some j := by
    intro s hs
    by_cases hfree : (host.streams s).state = .free
    · rcases @findSlot_isSome _ s (fun s => (host.streams s).state == .free) hs (by simp [hfree])
        with ⟨s', hs'⟩
      exact absurd ⟨s', hs'⟩ hnone
    · exact ⟨_, h.connSlot _ (h.streamActive s hfree), streamConn_of_used hfree⟩
  have hbelow := @refsBelow_full _ _ streamConn host.streams config.maxConnections hfull
  have hle := (@refsBelow_le _ config.streamCapacity streamConn host.streams config.maxConnections
    config.maxStreamsPerConn fun j _ => h.streamCount j ▸ h.streamLimit j).2 i (h.connSlot i hactive)
  rw [hbelow, ← h.streamCount] at hle
  unfold HostConfig.streamCapacity at hle
  omega

/-- A stream that keeps its place. -/
theorem setStream {s : Nat} {stream : Stream} (hstate : stream.state ≠ .free)
    (hused : (host.streams s).state ≠ .free) (hconn : stream.conn = (host.streams s).conn) :
    Counted config (Host.setStream s stream host) := by
  have hsame : streamConn stream = streamConn (host.streams s) := by
    rw [streamConn_of_used hstate, streamConn_of_used hused, hconn]
  have hslot : ∀ s', (Function.update host.streams s stream s').state ≠ .free →
      (host.streams s').state ≠ .free ∧
        (Function.update host.streams s stream s').conn = (host.streams s').conn := by
    intro s' hs'
    by_cases heq : s' = s
    · subst heq
      rw [Function.update_self] at hs' ⊢
      exact ⟨hused, hconn⟩
    · rw [Function.update_of_ne heq] at hs' ⊢
      exact ⟨hs', rfl⟩
  exact {
    streamCount := fun i => (h.streamCount i).trans (refs_update_same hsame i).symm
    openCount := h.openCount
    streamSlot := fun s' hs' => h.streamSlot s' (hslot s' hs').1
    openSlot := h.openSlot
    connSlot := h.connSlot
    streamActive := fun s' hs' => by
      show (host.conns (Function.update host.streams s stream s').conn).active = true
      rw [(hslot s' hs').2]
      exact h.streamActive s' (hslot s' hs').1
    openActive := h.openActive
    streamLimit := h.streamLimit }

/-- An open that points where it did. -/
theorem setOpen_of_same {o : Nat} {streamOpen : StreamOpen}
    (hsame : openConn streamOpen = openConn (host.opens o)) :
    Counted config (Host.setOpen o streamOpen host) := by
  have hslot : ∀ o', (Function.update host.opens o streamOpen o').state ≠ .free →
      (host.opens o').state ≠ .free ∧
        (Function.update host.opens o streamOpen o').conn = (host.opens o').conn := by
    intro o' ho'
    by_cases heq : o' = o
    · subst heq
      rw [Function.update_self] at ho' ⊢
      rcases used_of_openConn (hsame.symm.trans (openConn_of_used ho')) with ⟨hused, hconn⟩
      exact ⟨hused, hconn.symm⟩
    · rw [Function.update_of_ne heq] at ho' ⊢
      exact ⟨ho', rfl⟩
  exact {
    streamCount := h.streamCount
    openCount := fun i => (h.openCount i).trans (refs_update_same hsame i).symm
    streamSlot := h.streamSlot
    openSlot := fun o' ho' => h.openSlot o' (hslot o' ho').1
    connSlot := h.connSlot
    streamActive := h.streamActive
    openActive := fun o' ho' => by
      show (host.conns (Function.update host.opens o streamOpen o').conn).active = true
      rw [(hslot o' ho').2]
      exact h.openActive o' (hslot o' ho').1
    streamLimit := h.streamLimit }

/-- An open that keeps its place. -/
theorem setOpen {o : Nat} {streamOpen : StreamOpen} (hstate : streamOpen.state ≠ .free)
    (hused : (host.opens o).state ≠ .free) (hconn : streamOpen.conn = (host.opens o).conn) :
    Counted config (Host.setOpen o streamOpen host) := by
  apply h.setOpen_of_same
  rw [openConn_of_used hstate, openConn_of_used hused, hconn]

/-- A free open is cleared. -/
theorem clearOpen {o : Nat} (hfree : (host.opens o).state = .free) :
    Counted config (Host.setOpen o {} host) := by
  apply h.setOpen_of_same
  rw [openConn, openConn, if_pos rfl, if_pos hfree]

/-- A connection whose counts stay. -/
theorem setConn {i : Nat} {conn : Conn} (hstreams : conn.streamCount = (host.conns i).streamCount)
    (hopens : conn.openCount = (host.conns i).openCount)
    (hactive : conn.active = true → i < config.maxConnections)
    (hkept : (host.conns i).active = true → conn.active = true ∨
      (host.conns i).streamCount = 0 ∧ (host.conns i).openCount = 0) :
    Counted config (Host.setConn i conn host) := by
  have hget : ∀ j, (Function.update host.conns i conn j).streamCount = (host.conns j).streamCount ∧
      (Function.update host.conns i conn j).openCount = (host.conns j).openCount := by
    intro j
    by_cases heq : j = i
    · subst heq
      rw [Function.update_self]
      exact ⟨hstreams, hopens⟩
    · rw [Function.update_of_ne heq]
      exact ⟨rfl, rfl⟩
  have hstill : ∀ j, (host.conns j).active = true →
      0 < (host.conns j).streamCount + (host.conns j).openCount →
      (Function.update host.conns i conn j).active = true := by
    intro j hj hpos
    by_cases heq : j = i
    · subst heq
      rw [Function.update_self]
      rcases hkept hj with hkeep | ⟨hzero, hzero'⟩
      · exact hkeep
      · omega
    · rwa [Function.update_of_ne heq]
  exact {
    streamCount := fun j => (hget j).1.trans (h.streamCount j)
    openCount := fun j => (hget j).2.trans (h.openCount j)
    streamSlot := h.streamSlot
    openSlot := h.openSlot
    connSlot := fun j hj => by
      by_cases heq : j = i
      · subst heq
        have hj' : (Function.update host.conns j conn j).active = true := hj
        rw [Function.update_self] at hj'
        exact hactive hj'
      · have hj' : (Function.update host.conns i conn j).active = true := hj
        rw [Function.update_of_ne heq] at hj'
        exact h.connSlot j hj'
    streamActive := fun s hs => by
      have hpos : 0 < (host.conns (host.streams s).conn).streamCount := by
        rw [h.streamCount]
        exact refs_pos (h.streamSlot s hs) (streamConn_of_used hs)
      exact hstill _ (h.streamActive s hs) (Nat.add_pos_left hpos _)
    openActive := fun o ho => by
      have hpos : 0 < (host.conns (host.opens o).conn).openCount := by
        rw [h.openCount]
        exact refs_pos (h.openSlot o ho) (openConn_of_used ho)
      exact hstill _ (h.openActive o ho) (Nat.add_pos_right _ hpos)
    streamLimit := fun j => (hget j).1 ▸ h.streamLimit j }

/-- Replacing a stream slot and its connection's count together. -/
theorem countStream {s i count : Nat} {stream : Stream} (hs : s < config.streamCapacity)
    (hi : (host.conns i).active = true) (hconn : stream.state ≠ .free → stream.conn = i)
    (hbefore : (host.streams s).state ≠ .free → (host.streams s).conn = i)
    (hcount : count + (if (host.streams s).state = .free then 0 else 1) =
      (host.conns i).streamCount + (if stream.state = .free then 0 else 1))
    (hlimit : count ≤ config.maxStreamsPerConn) :
    Counted config (Host.setConn i { host.conns i with streamCount := count }
      (Host.setStream s stream host)) := by
  have hptr : ∀ st : Stream, (st.state ≠ .free → st.conn = i) → ∀ j,
      (if streamConn st = some j then 1 else 0) =
        if j = i then (if st.state = .free then 0 else 1) else 0 := by
    intro st hst j
    by_cases hfree : st.state = .free
    · simp [streamConn, hfree]
    · rw [streamConn_of_used hfree, hst hfree]
      simp only [Option.some.injEq, hfree, if_false]
      by_cases hj : j = i
      · rw [if_pos hj.symm, if_pos hj]
      · rw [if_neg (Ne.symm hj), if_neg hj]
  have hrefs : ∀ j, refs config.streamCapacity streamConn (Function.update host.streams s stream) j =
      if j = i then count else (host.conns j).streamCount := by
    intro j
    have hupdate := @refs_update _ config.streamCapacity streamConn host.streams s stream hs j
    rw [hptr _ hbefore, hptr _ hconn, ← h.streamCount] at hupdate
    by_cases hj : j = i
    · subst hj
      rw [if_pos rfl] at hupdate ⊢
      rw [if_pos rfl] at hupdate
      omega
    · rw [if_neg hj] at hupdate ⊢
      rw [if_neg hj] at hupdate
      omega
  have hconns : ∀ j, ((Function.update host.conns i
      { host.conns i with streamCount := count }) j).active = (host.conns j).active ∧
      ((Function.update host.conns i { host.conns i with streamCount := count }) j).openCount =
        (host.conns j).openCount ∧
      ((Function.update host.conns i { host.conns i with streamCount := count }) j).streamCount =
        if j = i then count else (host.conns j).streamCount := by
    intro j
    by_cases hj : j = i
    · subst hj
      rw [Function.update_self, if_pos rfl]
      exact ⟨rfl, rfl, rfl⟩
    · rw [Function.update_of_ne hj, if_neg hj]
      exact ⟨rfl, rfl, rfl⟩
  exact {
    streamCount := fun j => (hconns j).2.2.trans (hrefs j).symm
    openCount := fun j => (hconns j).2.1.trans (h.openCount j)
    streamSlot := fun s' hs' => by
      by_cases heq : s' = s
      · rwa [heq]
      · have hs'' : (Function.update host.streams s stream s').state ≠ .free := hs'
        rw [Function.update_of_ne heq] at hs''
        exact h.streamSlot s' hs''
    openSlot := h.openSlot
    connSlot := fun j hj => h.connSlot j ((hconns j).1 ▸ hj)
    streamActive := fun s' hs' => by
      show ((Function.update host.conns i _) (Function.update host.streams s stream s').conn).active
        = true
      rw [(hconns _).1]
      have hs'' : (Function.update host.streams s stream s').state ≠ .free := hs'
      by_cases heq : s' = s
      · rw [heq, Function.update_self] at hs'' ⊢
        rw [hconn hs'']
        exact hi
      · rw [Function.update_of_ne heq] at hs'' ⊢
        exact h.streamActive s' hs''
    openActive := fun o ho => (hconns _).1.trans (h.openActive o ho)
    streamLimit := fun j => by
      show ((Function.update host.conns i _) j).streamCount ≤ _
      rw [(hconns j).2.2]
      split
      · exact hlimit
      · exact h.streamLimit j }

/-- Replacing an open and its connection's count together. -/
theorem countOpen {o i count : Nat} {streamOpen : StreamOpen}
    (ho : o < config.maxPendingStreamOpens) (hi : (host.conns i).active = true)
    (hconn : streamOpen.state ≠ .free → streamOpen.conn = i)
    (hbefore : (host.opens o).state ≠ .free → (host.opens o).conn = i)
    (hcount : count + (if (host.opens o).state = .free then 0 else 1) =
      (host.conns i).openCount + (if streamOpen.state = .free then 0 else 1)) :
    Counted config (Host.setOpen o streamOpen
      (Host.setConn i { host.conns i with openCount := count } host)) := by
  have hptr : ∀ op : StreamOpen, (op.state ≠ .free → op.conn = i) → ∀ j,
      (if openConn op = some j then 1 else 0) =
        if j = i then (if op.state = .free then 0 else 1) else 0 := by
    intro op hop j
    by_cases hfree : op.state = .free
    · simp [openConn, hfree]
    · rw [openConn_of_used hfree, hop hfree]
      simp only [Option.some.injEq, hfree, if_false]
      by_cases hj : j = i
      · rw [if_pos hj.symm, if_pos hj]
      · rw [if_neg (Ne.symm hj), if_neg hj]
  have hrefs : ∀ j, refs config.maxPendingStreamOpens openConn
      (Function.update host.opens o streamOpen) j =
        if j = i then count else (host.conns j).openCount := by
    intro j
    have hupdate :=
      @refs_update _ config.maxPendingStreamOpens openConn host.opens o streamOpen ho j
    rw [hptr _ hbefore, hptr _ hconn, ← h.openCount] at hupdate
    by_cases hj : j = i
    · subst hj
      rw [if_pos rfl] at hupdate ⊢
      rw [if_pos rfl] at hupdate
      omega
    · rw [if_neg hj] at hupdate ⊢
      rw [if_neg hj] at hupdate
      omega
  have hconns : ∀ j, ((Function.update host.conns i
      { host.conns i with openCount := count }) j).active = (host.conns j).active ∧
      ((Function.update host.conns i { host.conns i with openCount := count }) j).streamCount =
        (host.conns j).streamCount ∧
      ((Function.update host.conns i { host.conns i with openCount := count }) j).openCount =
        if j = i then count else (host.conns j).openCount := by
    intro j
    by_cases hj : j = i
    · subst hj
      rw [Function.update_self, if_pos rfl]
      exact ⟨rfl, rfl, rfl⟩
    · rw [Function.update_of_ne hj, if_neg hj]
      exact ⟨rfl, rfl, rfl⟩
  exact {
    streamCount := fun j => (hconns j).2.1.trans (h.streamCount j)
    openCount := fun j => (hconns j).2.2.trans (hrefs j).symm
    streamSlot := h.streamSlot
    openSlot := fun o' ho' => by
      by_cases heq : o' = o
      · rwa [heq]
      · have ho'' : (Function.update host.opens o streamOpen o').state ≠ .free := ho'
        rw [Function.update_of_ne heq] at ho''
        exact h.openSlot o' ho''
    connSlot := fun j hj => h.connSlot j ((hconns j).1 ▸ hj)
    streamActive := fun s hs => (hconns _).1.trans (h.streamActive s hs)
    openActive := fun o' ho' => by
      show ((Function.update host.conns i _)
        (Function.update host.opens o streamOpen o').conn).active = true
      rw [(hconns _).1]
      have ho'' : (Function.update host.opens o streamOpen o').state ≠ .free := ho'
      by_cases heq : o' = o
      · rw [heq, Function.update_self] at ho'' ⊢
        rw [hconn ho'']
        exact hi
      · rw [Function.update_of_ne heq] at ho'' ⊢
        exact h.openActive o' ho''
    streamLimit := fun j => (hconns j).2.1 ▸ h.streamLimit j }

/-- `host_open_release`. -/
theorem openRelease (o : Nat) :
    Counted config (hostOpenRelease o host) := by
  unfold hostOpenRelease
  by_cases hfree : (host.opens o).state = .free
  · rw [if_pos hfree]
    exact h
  · rw [if_neg hfree]
    apply h.countOpen (h.openSlot o hfree) (h.openActive o hfree)
    · exact fun hne => absurd rfl hne
    · exact fun _ => rfl
    · have hpos := refs_pos (h.openSlot o hfree) (openConn_of_used hfree)
      rw [← h.openCount] at hpos
      rw [if_neg hfree, if_pos rfl]
      omega

end Counted

/-- `host_stream_release` of a stream whose open, if it has one, has its event. -/
def freeStreamSlot (s : Nat) (host : LeanLibp2p.Host) : LeanLibp2p.Host :=
  setConn (host.streams s).conn
    { host.conns (host.streams s).conn with
      streamCount := (host.conns (host.streams s).conn).streamCount - 1 } (setStream s {} host)

theorem hostStreamDrop_eq {s : Nat} (h : ∀ o, (host.streams s).openAttempt = some o →
    (host.opens o).state = .evented) : hostStreamDrop s host = freeStreamSlot s host := by
  unfold hostStreamDrop
  dsimp only
  cases hattempt : (host.streams s).openAttempt with
  | none => rfl
  | some o =>
    have hevented : ((Host.setConn (host.streams s).conn
        { host.conns (host.streams s).conn with
          streamCount := (host.conns (host.streams s).conn).streamCount - 1 } host).opens o).state =
        .evented := h o hattempt
    dsimp only
    rw [if_pos hevented]
    rfl

theorem Counted.freeStreamSlot (h : Counted config host) {s : Nat}
    (hused : (host.streams s).state ≠ .free) : Counted config (Host.freeStreamSlot s host) := by
  have hlimit := h.streamLimit (host.streams s).conn
  have hpos := refs_pos (h.streamSlot s hused) (streamConn_of_used hused)
  rw [← h.streamCount] at hpos
  apply h.countStream (h.streamSlot s hused) (h.streamActive s hused)
  · exact fun hne => absurd rfl hne
  · exact fun _ => rfl
  · rw [if_neg hused, if_pos rfl]
    omega
  · omega

end LeanLibp2p.Host
