import LeanLibp2p.Gossipsub.Tx.Reserve
import LeanLibp2p.Gossipsub.Tx.System

/-!
# Frames in slots and on streams

`FrameInv` ties the slots to the frames that were enqueued and the writer streams to the bytes
that the host took: finished frames, and then the part of the frame at the head of the queue
that was accepted so far. The lemmas say what one change of the queue does to it.
-/

namespace LeanLibp2p.Gossipsub

open LeanLibp2p.Lib

variable {config : Config} {s : TxSystem} {q : Nat → List Nat}

/-- Slots in use are those in the queues. -/
theorem TxInv.used_iff {tx : Tx} {q : Nat → List Nat} (h : TxInv config tx q none)
    (i : Nat) : tx.Used config i ↔ ∃ p < config.capacity.maxPeers, i ∈ q p := by
  constructor
  · intro hi
    rcases h.owner i hi with ⟨hp, howner⟩
    exact ⟨_, hp, howner (by simp)⟩
  · intro hi
    rcases hi with ⟨p, hp, hi⟩
    exact (h.queued p hp i hi).1

/-- The part of the first frame of a queue that was accepted. -/
def TxSystem.headPart (s : TxSystem) : List Nat → List (Nat × UInt8)
  | [] => []
  | i :: _ => (s.tagged (s.frameOf i)).take (s.tx.queue i).pos

/-- The frames in `done` are finished: none of them waits in a slot. -/
structure TxSystem.Finished (config : Config) (s : TxSystem) (done : List Nat) : Prop where
  nodup : done.Nodup
  known : ∀ t ∈ done, t < s.frames.length
  gone : ∀ i, s.tx.Used config i → s.frameOf i ∉ done

/-- The invariant of the transmit side: slots hold distinct frames, only the first frame of a
    queue may be accepted in part, and the streams carry whole frames. -/
structure FrameInv (config : Config) (s : TxSystem) (q : Nat → List Nat) : Prop where
  tx : TxInv config s.tx q none
  waiting : ∀ p < config.capacity.maxPeers, ∀ i ∈ (q p).tail, (s.tx.queue i).pos = 0
  frame : ∀ i, s.tx.Used config i →
    s.frameOf i < s.frames.length ∧ s.frame (s.frameOf i) = s.tx.content i
  distinct : ∀ i j, s.tx.Used config i → s.tx.Used config j → s.frameOf i = s.frameOf j → i = j
  encoded : ∀ frame ∈ s.frames, IsRpcFrame config frame
  known : ∀ p stream, (s.peers p).stream = some stream → stream ∈ s.writers
  own : ∀ p r stream, (s.peers p).stream = some stream → (s.peers r).stream = some stream → p = r
  unused : ∀ stream, stream ∉ s.writers → s.sent stream = []
  inside : ∀ p stream, (s.peers p).stream = some stream → p < config.capacity.maxPeers
  current : ∀ p stream, (s.peers p).stream = some stream → ∃ done, s.Finished config done ∧
    s.sent stream = done.flatMap s.tagged ++ s.headPart (q p)
  past : ∀ stream, (∀ p, (s.peers p).stream ≠ some stream) → FrameIntegrity config s stream

theorem TxSystem.tagged_length (s : TxSystem) (t : Nat) :
    (s.tagged t).length = (s.frame t).length := by
  simp [TxSystem.tagged]

/-- Finished frames and a part of the next one. -/
theorem FrameInv.integrity_of_finished (h : FrameInv config s q) {p stream : Nat} (hp : p < config.capacity.maxPeers)
    {done : List Nat} (hdone : s.Finished config done)
    (hsent : s.sent stream = done.flatMap s.tagged ++ s.headPart (q p)) :
    FrameIntegrity config s stream := by
  refine ⟨h.encoded, done, ?_⟩
  cases hq : q p with
  | nil =>
    refine ⟨s.frames.length, [], ?_, hdone.known, List.nil_prefix, ?_⟩
    · rw [List.nodup_append]
      refine ⟨hdone.nodup, by simp, ?_⟩
      intro t ht u hu
      have hlt := hdone.known t ht
      rw [List.mem_singleton] at hu
      omega
    · rw [hsent, hq]
      rfl
  | cons i l =>
    have hused : s.tx.Used config i := (h.tx.queued p hp i (by simp [hq])).1
    refine ⟨s.frameOf i, s.headPart (q p), ?_, hdone.known, ?_, hsent⟩
    · rw [List.nodup_append]
      refine ⟨hdone.nodup, by simp, ?_⟩
      rintro t ht u hu rfl
      rw [List.mem_singleton] at hu
      exact hdone.gone i hused (hu ▸ ht)
    · rw [hq]
      exact List.take_prefix ..

/-- The invariant gives the integrity of every stream. -/
theorem FrameInv.integrity (h : FrameInv config s q) (stream : Nat) : FrameIntegrity config s stream := by
  by_cases hw : ∃ p, (s.peers p).stream = some stream
  · rcases hw with ⟨p, hp⟩
    rcases h.current p stream hp with ⟨done, hdone, hsent⟩
    exact h.integrity_of_finished (h.inside p stream hp) hdone hsent
  · exact h.past stream fun p hp => hw ⟨p, hp⟩

/-! ## Steps that change no frame -/

theorem TxSystem.headPart_congr {s s' : TxSystem} {l : List Nat}
    (h : ∀ i ∈ l, s'.tagged (s'.frameOf i) = s.tagged (s.frameOf i) ∧
      (s'.tx.queue i).pos = (s.tx.queue i).pos) : s'.headPart l = s.headPart l := by
  cases l with
  | nil => rfl
  | cons i l =>
    rcases h i (by simp) with ⟨htagged, hpos⟩
    simp only [TxSystem.headPart, htagged, hpos]

/-- Nothing of the first frame was accepted. -/
theorem TxSystem.headPart_eq_nil {l : List Nat}
    (h : ∀ i, l.head? = some i → (s.tx.queue i).pos = 0) : s.headPart l = [] := by
  cases l with
  | nil => rfl
  | cons i l => rw [TxSystem.headPart, h i rfl, List.take_zero]

/-- Steps that leave the queues, the positions and the bytes of the frames alone. -/
theorem FrameInv.keeps (h : FrameInv config s q) {tx : Tx} (htx : TxInv config tx q none)
    (hkeeps : ∀ i, s.tx.Used config i → (tx.queue i).pos = (s.tx.queue i).pos ∧
      tx.content i = s.tx.content i) : FrameInv config { s with tx := tx } q := by
  have hused : ∀ i, tx.Used config i ↔ s.tx.Used config i := by
    intro i
    rw [htx.used_iff, h.tx.used_iff]
  refine { h with
    tx := htx
    waiting := ?_
    frame := ?_
    distinct := ?_
    current := ?_
    past := h.past }
  · intro p hp i hi
    rw [← h.waiting p hp i hi]
    exact (hkeeps i (h.tx.queued p hp i (List.mem_of_mem_tail hi)).1).1
  · intro i hi
    have hi' := (hused i).mp hi
    refine ⟨(h.frame i hi').1, (h.frame i hi').2.trans ?_⟩
    exact (hkeeps i hi').2.symm
  · intro i j hi hj
    exact h.distinct i j ((hused i).mp hi) ((hused j).mp hj)
  · intro p stream hp
    rcases h.current p stream hp with ⟨done, hdone, hsent⟩
    refine ⟨done, ⟨hdone.nodup, hdone.known, fun i hi => hdone.gone i ((hused i).mp hi)⟩, ?_⟩
    refine hsent.trans ?_
    congr 1
    apply TxSystem.headPart_congr
    intro i hi
    exact ⟨rfl, (hkeeps i (h.tx.queued p (h.inside p stream hp) i hi).1).1.symm⟩

theorem FrameInv.schedules (h : FrameInv config s q) {tx : Tx} (hs : Tx.Schedules s.tx tx) :
    FrameInv config { s with tx := tx } q :=
  h.keeps (hs.inv h.tx) fun i _ => ⟨(hs.keeps i).pos_eq, (hs.keeps i).2⟩

/-! ## Removing a frame -/

/-- A frame may go when nothing of it was accepted, when all of it was, or when its peer has no
    writer any more. -/
def TxSystem.MayRemove (s : TxSystem) (q : Nat → List Nat) (i : Nat) : Prop :=
  (s.tx.queue i).pos = 0 ∨ (s.peers (s.tx.queue i).peerIndex).stream = none ∨
    ((q (s.tx.queue i).peerIndex).head? = some i ∧ (s.tx.queue i).pos = s.tx.len i)

/-- Behind the first item nothing new comes up when an item goes. -/
theorem mem_tail_of_mem_tail_erase {l : List Nat} {i j : Nat} (hj : j ∈ (l.erase i).tail) :
    j ∈ l.tail := by
  cases l with
  | nil => cases hj
  | cons k l =>
    by_cases hk : k = i
    · rw [hk, List.erase_cons_head] at hj
      exact List.mem_of_mem_tail hj
    · rw [List.erase_cons_tail (by simpa using hk)] at hj
      exact List.mem_of_mem_erase hj

section Remove

variable {tx : Tx} {i : Nat}

theorem TxSystem.Finished.loses {done : List Nat} (hdone : s.Finished config done)
    (h : s.tx.Loses tx i) : TxSystem.Finished config { s with tx := tx } done :=
  ⟨hdone.nodup, hdone.known, fun _ hj => hdone.gone _ (h.used_iff.mp hj).1⟩

variable (h : FrameInv config s q)

include h

/-- The frame of the item that goes is finished. -/
theorem FrameInv.finish (hlose : s.tx.Loses tx i) (hi : s.tx.Used config i) {done : List Nat}
    (hdone : s.Finished config done) :
    TxSystem.Finished config { s with tx := tx } (done ++ [s.frameOf i]) where
  nodup := by
    rw [List.nodup_append]
    refine ⟨hdone.nodup, by simp, ?_⟩
    rintro t ht u hu rfl
    rw [List.mem_singleton] at hu
    exact hdone.gone i hi (hu ▸ ht)
  known t ht := by
    rcases List.mem_append.mp ht with ht | ht
    · exact hdone.known t ht
    · rw [List.mem_singleton] at ht
      rw [ht]
      exact (h.frame i hi).1
  gone j hj hmem := by
    rcases hlose.used_iff.mp hj with ⟨hju, hne⟩
    rcases List.mem_append.mp hmem with hmem | hmem
    · exact hdone.gone j hju hmem
    · rw [List.mem_singleton] at hmem
      exact hne (h.distinct j i hju hi hmem)

/-- When all of a frame was accepted, its part is the whole frame. -/
theorem FrameInv.tagged_take (hi : s.tx.Used config i) (hall : (s.tx.queue i).pos = s.tx.len i) :
    (s.tagged (s.frameOf i)).take (s.tx.queue i).pos = s.tagged (s.frameOf i) := by
  have hlen : (s.tagged (s.frameOf i)).length = s.tx.len i := by
    rw [TxSystem.tagged_length, (h.frame i hi).2]
    exact Memory.slice_length ..
  rw [hall, ← hlen, List.take_length]

/-- The stream of a queue whose first item goes. -/
theorem FrameInv.current_head (hlose : s.tx.Loses tx i) (hi : s.tx.Used config i)
    (hmay : s.MayRemove q i) {p stream : Nat} {l : List Nat} (hp : (s.peers p).stream = some stream)
    (hq : q p = i :: l) :
    ∃ done, TxSystem.Finished config { s with tx := tx } done ∧
      s.sent stream = done.flatMap s.tagged ++ TxSystem.headPart { s with tx := tx } l := by
  have hpmax := h.inside p stream hp
  have hpeer : (s.tx.queue i).peerIndex = p := (h.tx.queued p hpmax i (by simp [hq])).2.1
  rcases h.current p stream hp with ⟨done, hdone, hsent⟩
  -- nothing of the frame that comes next was accepted
  have hnext : TxSystem.headPart { s with tx := tx } l = [] := by
    apply TxSystem.headPart_eq_nil
    intro j hj
    have hjl : j ∈ l := List.mem_of_head? hj
    have hne : j ≠ i := by
      rintro rfl
      have hnd := (h.tx.queue p hpmax).nodup
      rw [hq] at hnd
      exact (List.nodup_cons.mp hnd).1 hjl
    exact (hlose.keeps j hne).pos_eq.trans (h.waiting p hpmax j (by rw [hq]; exact hjl))
  rw [hnext]
  simp only [List.append_nil]
  rw [hq, TxSystem.headPart] at hsent
  rcases hmay with hzero | hnone | ⟨-, hall⟩
  · rw [hzero, List.take_zero, List.append_nil] at hsent
    exact ⟨done, hdone.loses hlose, hsent⟩
  · rw [hpeer, hp] at hnone
    cases hnone
  · refine ⟨done ++ [s.frameOf i], h.finish hlose hi hdone, ?_⟩
    rw [List.flatMap_append, List.flatMap_singleton]
    rwa [h.tagged_take hi hall] at hsent

/-- The stream of a queue whose first item stays. -/
theorem FrameInv.current_behind (hlose : s.tx.Loses tx i) {p stream : Nat}
    (hp : (s.peers p).stream = some stream) (hhead : (q p).head? ≠ some i) :
    ∃ done, TxSystem.Finished config { s with tx := tx } done ∧ s.sent stream =
      done.flatMap s.tagged ++ TxSystem.headPart { s with tx := tx } ((q p).erase i) := by
  rcases h.current p stream hp with ⟨done, hdone, hsent⟩
  refine ⟨done, hdone.loses hlose, hsent.trans ?_⟩
  congr 1
  cases hq : q p with
  | nil => rfl
  | cons k l =>
    rw [hq] at hhead
    have hk : k ≠ i := by
      rintro rfl
      exact hhead rfl
    rw [List.erase_cons_tail (by simpa using hk)]
    simp only [TxSystem.headPart, (hlose.keeps k hk).pos_eq]
    rfl

theorem FrameInv.remove (peers : Nat → Peer) (hi : s.tx.Used config i) (hmay : s.MayRemove q i) :
    FrameInv config { s with tx := txRemove config peers s.tx i } fun p => (q p).erase i := by
  rcases h.tx.remove peers hi (.inl rfl) with ⟨htx, hlose⟩
  refine { h with
    tx := htx
    waiting := ?waiting
    frame := ?frame
    distinct := fun j k hj hk => h.distinct j k (hlose.used_iff.mp hj).1
      (hlose.used_iff.mp hk).1
    current := ?current
    past := h.past }
  case waiting =>
    intro p hp j hj
    have hne : j ≠ i := by
      rintro rfl
      exact (h.tx.queue p hp).nodup.not_mem_erase (List.mem_of_mem_tail hj)
    exact (hlose.keeps j hne).pos_eq.trans (h.waiting p hp j (mem_tail_of_mem_tail_erase hj))
  case frame =>
    intro j hj
    rcases hlose.used_iff.mp hj with ⟨hju, hne⟩
    exact ⟨(h.frame j hju).1, (h.frame j hju).2.trans (hlose.keeps j hne).2.symm⟩
  case current =>
    intro p stream hp
    by_cases hhead : (q p).head? = some i
    · cases hq : q p with
      | nil =>
        rw [hq] at hhead
        cases hhead
      | cons k l =>
        rw [hq] at hhead
        obtain rfl : k = i := Option.some.inj hhead
        have hstream := h.current_head hlose hi hmay hp hq
        rwa [List.erase_cons_head]
    · exact h.current_behind hlose hp hhead

end Remove

/-! ## A new frame -/

/-- A new item goes before the first item of a queue only when it has priority and the first
    item has none. -/
theorem Tx.insertItem_cases (tx : Tx) {l : List Nat}
    (hsorted : l = tx.priorityItems l ++ tx.normalItems l) (i : Nat) (priority : Bool) :
    (tx.insertItem l i priority = i :: l ∧
      ∀ j, l.head? = some j → priority = true ∧ (tx.queue j).priority = false) ∨
    ∃ j xs ys, l = j :: xs ∧ tx.insertItem l i priority = j :: ys ∧ ys ⊆ i :: xs := by
  have hsub : tx.insertItem l i priority ⊆ i :: l :=
    (tx.insertItem_perm hsorted i priority).subset
  cases l with
  | nil =>
    left
    cases priority <;> exact ⟨rfl, (fun _ hj => nomatch hj)⟩
  | cons j xs =>
    cases priority with
    | false =>
      refine .inr ⟨j, xs, xs ++ [i], rfl, rfl, ?_⟩
      intro k hk
      simpa [or_comm] using hk
    | true =>
      cases hj : (tx.queue j).priority with
      | true =>
        have hhead : tx.priorityItems (j :: xs) = j :: tx.priorityItems xs := by
          simp [Tx.priorityItems, hj]
        have hnormal : tx.normalItems (j :: xs) = tx.normalItems xs := by
          simp [Tx.normalItems, hj]
        refine .inr ⟨j, xs, tx.priorityItems xs ++ i :: tx.normalItems xs, rfl, ?_, ?_⟩
        · simp [Tx.insertItem, hhead, hnormal]
        · intro k hk
          rcases List.mem_append.mp hk with hk | hk
          · exact List.mem_cons_of_mem _ (Tx.mem_priorityItems.mp hk).1
          · rcases List.mem_cons.mp hk with rfl | hk
            · exact List.mem_cons_self
            · exact List.mem_cons_of_mem _ (Tx.mem_normalItems.mp hk).1
      | false =>
        -- the list is sorted, so no item behind has priority either
        have hnone : tx.priorityItems (j :: xs) = [] := by
          have hpairs := tx.sorted_iff.mp hsorted
          unfold Tx.priorityItems
          rw [List.filter_eq_nil_iff]
          intro k hk hprio
          rcases List.mem_cons.mp hk with rfl | hk
          · rw [hj] at hprio
            cases hprio
          · have := (List.pairwise_cons.mp hpairs).1 k hk hprio
            rw [hj] at this
            cases this
        have hall : tx.normalItems (j :: xs) = j :: xs := by
          rw [hnone, List.nil_append] at hsorted
          exact hsorted.symm
        refine .inl ⟨?_, ?_⟩
        · simp [Tx.insertItem, hnone, hall]
        · intro k hk
          obtain rfl : j = k := Option.some.inj hk
          exact ⟨rfl, hj⟩

/-- The first frame of the queue of peer `p` is not a normal frame that was accepted in part:
    when it was accepted in part, it has priority. -/
def TxSystem.PriorityMayEnter (s : TxSystem) (p : Nat) : Prop :=
  ∀ i, (s.tx.peer p).head = some i → (s.tx.queue i).pos ≠ 0 → (s.tx.queue i).priority = true

theorem FrameIntegrity.mono {s s' : TxSystem} {stream : Nat} {frame : Bytes}
    (h : FrameIntegrity config s stream) (hframes : s'.frames = s.frames ++ [frame])
    (hframe : IsRpcFrame config frame) (hsent : s'.sent stream = s.sent stream) :
    FrameIntegrity config s' stream := by
  rcases h with ⟨hencoded, done, last, rest, hnd, hknown, hrest, heq⟩
  have hold : ∀ t < s.frames.length, s'.tagged t = s.tagged t := by
    intro t ht
    simp only [TxSystem.tagged, TxSystem.frame, hframes, List.getD_eq_getElem?_getD,
      List.getElem?_append_left ht]
  refine ⟨?_, done, last, rest, hnd, ?_, ?_, ?_⟩
  · intro f hf
    rw [hframes] at hf
    rcases List.mem_append.mp hf with hf | hf
    · exact hencoded f hf
    · rw [List.mem_singleton] at hf
      rw [hf]
      exact hframe
  · intro t ht
    rw [hframes, List.length_append]
    exact Nat.lt_add_right _ (hknown t ht)
  · by_cases hlast : last < s.frames.length
    · rw [hold last hlast]
      exact hrest
    · have hempty : s.tagged last = [] := by
        simp only [TxSystem.tagged, TxSystem.frame, List.getD_eq_getElem?_getD,
          List.getElem?_eq_none (Nat.le_of_not_lt hlast)]
        rfl
      rw [hempty, List.prefix_nil] at hrest
      rw [hrest]
      exact List.nil_prefix
  · rw [hsent, heq]
    congr 1
    apply List.flatMap_congr
    intro t ht
    exact (hold t (hknown t ht)).symm

/-- The system `s'` is `s` with one frame more, in slot `i`. -/
structure TxSystem.Gains (config : Config) (s s' : TxSystem) (i : Nat) : Prop where
  peers : s'.peers = s.peers
  writers : s'.writers = s.writers
  sent : s'.sent = s.sent
  frames : s'.frames = s.frames ++ [s'.tx.content i]
  isFrame : IsRpcFrame config (s'.tx.content i)
  number : s'.frameOf i = s.frames.length
  numbers : ∀ j, j ≠ i → s'.frameOf j = s.frameOf j
  free : ¬ s.tx.Used config i
  used : ∀ j, s'.tx.Used config j → j = i ∨ s.tx.Used config j
  keeps : ∀ j, s.tx.Used config j → s.tx.Keeps s'.tx j
  pos : (s'.tx.queue i).pos = 0

namespace TxSystem.Gains

variable {s' : TxSystem} {i j t : Nat} (hgain : s.Gains config s' i)

include hgain

theorem length : s'.frames.length = s.frames.length + 1 := by
  rw [hgain.frames, List.length_append]
  rfl

theorem ne (hj : s.tx.Used config j) : j ≠ i := by
  rintro rfl
  exact hgain.free hj

theorem frame_old (ht : t < s.frames.length) : s'.frame t = s.frame t := by
  simp only [TxSystem.frame, hgain.frames, List.getD_eq_getElem?_getD, List.getElem?_append_left ht]

theorem frame_new : s'.frame s.frames.length = s'.tx.content i := by
  simp [TxSystem.frame, hgain.frames]

theorem tagged (ht : t < s.frames.length) : s'.tagged t = s.tagged t := by
  simp only [TxSystem.tagged, hgain.frame_old ht]

/-- Every other item has the frame and the position that it had. -/
theorem same (h : FrameInv config s q) (hj : s.tx.Used config j) :
    s'.tagged (s'.frameOf j) = s.tagged (s.frameOf j) ∧
      (s'.tx.queue j).pos = (s.tx.queue j).pos := by
  rw [hgain.numbers j (hgain.ne hj)]
  exact ⟨hgain.tagged (h.frame j hj).1, (hgain.keeps j hj).pos_eq⟩

theorem frame (h : FrameInv config s q) (hj : s'.tx.Used config j) :
    s'.frameOf j < s'.frames.length ∧ s'.frame (s'.frameOf j) = s'.tx.content j := by
  rcases hgain.used j hj with rfl | hj
  · rw [hgain.number, hgain.length, hgain.frame_new]
    exact ⟨Nat.lt_succ_self _, rfl⟩
  · rw [hgain.numbers j (hgain.ne hj), hgain.length, hgain.frame_old (h.frame j hj).1,
      (hgain.keeps j hj).2]
    exact ⟨Nat.lt_succ_of_lt (h.frame j hj).1, (h.frame j hj).2⟩

theorem distinct (h : FrameInv config s q) {k : Nat} (hj : s'.tx.Used config j)
    (hk : s'.tx.Used config k) (hjk : s'.frameOf j = s'.frameOf k) : j = k := by
  rcases hgain.used j hj with rfl | hj
  · rcases hgain.used k hk with rfl | hk
    · rfl
    · rw [hgain.number, hgain.numbers k (hgain.ne hk)] at hjk
      have := (h.frame k hk).1
      omega
  · rcases hgain.used k hk with rfl | hk
    · rw [hgain.number, hgain.numbers j (hgain.ne hj)] at hjk
      have := (h.frame j hj).1
      omega
    · rw [hgain.numbers j (hgain.ne hj), hgain.numbers k (hgain.ne hk)] at hjk
      exact h.distinct j k hj hk hjk

theorem encoded (h : FrameInv config s q) {frame : Bytes} (hframe : frame ∈ s'.frames) :
    IsRpcFrame config frame := by
  rw [hgain.frames] at hframe
  rcases List.mem_append.mp hframe with hframe | hframe
  · exact h.encoded frame hframe
  · rw [List.mem_singleton] at hframe
    rw [hframe]
    exact hgain.isFrame

theorem finished {done : List Nat} (hdone : s.Finished config done) :
    s'.Finished config done where
  nodup := hdone.nodup
  known t ht := by
    rw [hgain.length]
    exact Nat.lt_succ_of_lt (hdone.known t ht)
  gone j hj := by
    rcases hgain.used j hj with rfl | hj
    · rw [hgain.number]
      exact fun hmem => Nat.lt_irrefl _ (hdone.known _ hmem)
    · rw [hgain.numbers j (hgain.ne hj)]
      exact hdone.gone j hj

/-- A stream carries the finished frames that it carried. -/
theorem flatMap_tagged {done : List Nat} (hdone : s.Finished config done) :
    done.flatMap s'.tagged = done.flatMap s.tagged := by
  apply List.flatMap_congr
  intro t ht
  exact hgain.tagged (hdone.known t ht)

end TxSystem.Gains

section Enqueue

variable {s' : TxSystem} {p i : Nat} {priority : Bool}

variable (h : FrameInv config s q)

include h

/-- The head of a queue changes only when nothing of the old head was accepted. -/
theorem FrameInv.front (hp : p < config.capacity.maxPeers)
    (hsafe : priority = true → s.PriorityMayEnter p) {j : Nat} (hj : (q p).head? = some j)
    (hprio : priority = true ∧ (s.tx.queue j).priority = false) : (s.tx.queue j).pos = 0 := by
  by_contra hpos
  have := hsafe hprio.1 j ((h.tx.queue p hp).head_eq.trans hj) hpos
  rw [hprio.2] at this
  cases this

/-- Behind the head of the longer queue nothing was accepted. -/
theorem FrameInv.waiting_insert (hgain : s.Gains config s' i) (hp : p < config.capacity.maxPeers)
    (hsafe : priority = true → s.PriorityMayEnter p) {j : Nat}
    (hj : j ∈ (s.tx.insertItem (q p) i priority).tail) : (s'.tx.queue j).pos = 0 := by
  have hold : ∀ k ∈ q p, (s'.tx.queue k).pos = (s.tx.queue k).pos := fun k hk =>
    (hgain.same h (h.tx.queued p hp k hk).1).2
  rcases s.tx.insertItem_cases (h.tx.queue p hp).sorted i priority with
    ⟨heq, hhead⟩ | ⟨k, xs, ys, hq, heq, hsub⟩
  · rw [heq, List.tail_cons] at hj
    rw [hold j hj]
    cases hq : q p with
    | nil =>
      rw [hq] at hj
      cases hj
    | cons k xs =>
      have hk : (q p).head? = some k := by rw [hq]; rfl
      rw [hq] at hj
      rcases List.mem_cons.mp hj with rfl | hj
      · exact h.front hp hsafe hk (hhead _ hk)
      · exact h.waiting p hp j (by rw [hq]; exact hj)
  · rw [heq, List.tail_cons] at hj
    rcases List.mem_cons.mp (hsub hj) with rfl | hj
    · exact hgain.pos
    · rw [hold j (by simp [hq, hj])]
      exact h.waiting p hp j (by rw [hq]; exact hj)

/-- What was accepted of the first frame stays what was accepted of the first frame. -/
theorem FrameInv.headPart_insert (hgain : s.Gains config s' i) (hp : p < config.capacity.maxPeers)
    (hsafe : priority = true → s.PriorityMayEnter p) :
    s'.headPart (s.tx.insertItem (q p) i priority) = s.headPart (q p) := by
  rcases s.tx.insertItem_cases (h.tx.queue p hp).sorted i priority with
    ⟨heq, hhead⟩ | ⟨k, xs, ys, hq, heq, -⟩
  · rw [heq, TxSystem.headPart_eq_nil, TxSystem.headPart_eq_nil]
    · exact fun j hj => h.front hp hsafe hj (hhead j hj)
    · intro j hj
      obtain rfl : i = j := Option.some.inj hj
      exact hgain.pos
  · rw [heq, hq]
    have hk := hgain.same h (h.tx.queued p hp k (by simp [hq])).1
    simp only [TxSystem.headPart, hk.1, hk.2]

/-- The enqueued system has one frame more. -/
theorem FrameInv.gains {tx : Tx} {rpc : Rpc}
    (htx : TxInv config tx (Function.update q p (s.tx.insertItem (q p) i priority)) none)
    (henq : Tx.Enqueues config s.peers s.tx tx p rpc priority i) :
    s.Gains config (s.enqueued (.ok i, tx)) i where
  peers := rfl
  writers := rfl
  sent := rfl
  frames := rfl
  isFrame := by
    rcases henq.encoded with ⟨cap, hcap⟩
    exact ⟨_, _, _, hcap⟩
  number := Function.update_self ..
  numbers j hj := Function.update_of_ne hj ..
  free := henq.free
  used j hj := by
    have hperm := s.tx.insertItem_perm (h.tx.queue p henq.peer_lt).sorted i priority
    rcases (htx.used_iff j).mp hj with ⟨r, hr, hjr⟩
    by_cases hrp : r = p
    · subst hrp
      rw [Function.update_self, hperm.mem_iff, List.mem_cons] at hjr
      exact hjr.imp_right fun hjr => (h.tx.used_iff j).mpr ⟨r, hr, hjr⟩
    · rw [Function.update_of_ne hrp] at hjr
      exact .inr ((h.tx.used_iff j).mpr ⟨r, hr, hjr⟩)
  keeps := henq.keeps
  pos := henq.pos

/-- A new frame joins a queue behind whatever was accepted in part. -/
theorem FrameInv.enqueue {tx : Tx} {rpc : Rpc}
    (htx : TxInv config tx (Function.update q p (s.tx.insertItem (q p) i priority)) none)
    (henq : Tx.Enqueues config s.peers s.tx tx p rpc priority i)
    (hsafe : priority = true → s.PriorityMayEnter p) :
    FrameInv config (s.enqueued (.ok i, tx))
      (Function.update q p (s.tx.insertItem (q p) i priority)) := by
  have hgain := h.gains htx henq
  have hstx : TxInv config (s.enqueued (.ok i, tx)).tx
      (Function.update q p (s.tx.insertItem (q p) i priority)) none := htx
  generalize s.enqueued (.ok i, tx) = s' at hgain hstx
  refine {
    tx := hstx
    waiting := ?waiting
    frame := fun j hj => hgain.frame h hj
    distinct := fun j k hj hk => hgain.distinct h hj hk
    encoded := fun frame hframe => hgain.encoded h hframe
    known := by rw [hgain.peers, hgain.writers]; exact h.known
    own := by rw [hgain.peers]; exact h.own
    unused := by rw [hgain.writers, hgain.sent]; exact h.unused
    inside := by rw [hgain.peers]; exact h.inside
    current := ?current
    past := ?past }
  case waiting =>
    intro r hr j hj
    by_cases hrp : r = p
    · subst hrp
      rw [Function.update_self] at hj
      exact h.waiting_insert hgain hr hsafe hj
    · rw [Function.update_of_ne hrp] at hj
      rw [(hgain.same h (h.tx.queued r hr j (List.mem_of_mem_tail hj)).1).2]
      exact h.waiting r hr j hj
  case current =>
    intro r stream hr
    rw [hgain.peers] at hr
    have hrmax := h.inside r stream hr
    rcases h.current r stream hr with ⟨done, hdone, heq⟩
    refine ⟨done, hgain.finished hdone, ?_⟩
    rw [hgain.sent, heq, hgain.flatMap_tagged hdone]
    congr 1
    by_cases hrp : r = p
    · subst hrp
      rw [Function.update_self, h.headPart_insert hgain hrmax hsafe]
    · rw [Function.update_of_ne hrp]
      symm
      apply TxSystem.headPart_congr
      intro j hj
      exact hgain.same h (h.tx.queued r hrmax j hj).1
  case past =>
    intro stream hnone
    rw [hgain.peers] at hnone
    exact (h.past stream hnone).mono hgain.frames hgain.isFrame (congrFun hgain.sent stream)

end Enqueue

/-! ## Writing -/

section Accept

variable {p r stream i j n : Nat}

/-- The head of one queue is behind no other head. -/
theorem FrameInv.ne_of_mem_tail (h : FrameInv config s q) (hp : p < config.capacity.maxPeers)
    (hr : r < config.capacity.maxPeers) (hhead : (q p).head? = some i) (hj : j ∈ (q r).tail) :
    j ≠ i := by
  rintro rfl
  by_cases hrp : r = p
  · subst hrp
    have hnd := (h.tx.queue r hr).nodup
    cases hq : q r with
    | nil =>
      rw [hq] at hj
      cases hj
    | cons k l =>
      rw [hq] at hhead hj hnd
      obtain rfl : k = j := Option.some.inj hhead
      exact (List.nodup_cons.mp hnd).1 hj
  · exact h.tx.disjoint hp hr hrp (List.mem_of_mem_tail hj) (List.mem_of_head? hhead)

/-- An item of another queue is another item. -/
theorem FrameInv.ne_of_mem (h : FrameInv config s q) (hp : p < config.capacity.maxPeers)
    (hr : r < config.capacity.maxPeers) (hrp : r ≠ p) (hi : i ∈ q p) (hj : j ∈ q r) : j ≠ i := by
  rintro rfl
  exact h.tx.disjoint hp hr hrp hj hi

/-- The position of an item is no part of its content. -/
theorem Tx.content_setItem_pos (tx : Tx) (i n j : Nat) :
    (tx.setItem i { tx.queue i with pos := n }).content j = tx.content j := by
  unfold Tx.content
  by_cases hji : j = i
  · subst hji
    rw [Tx.setItem_self]
    rfl
  · rw [Tx.setItem_of_ne _ _ hji]
    rfl

/-- What was accepted of the head, and the bytes that follow in the buffer. -/
theorem FrameInv.headPart_append (h : FrameInv config s q) {l : List Nat}
    (hi : s.tx.Used config i) (hn : (s.tx.queue i).pos + n ≤ s.tx.len i) :
    s.headPart (i :: l) ++ (s.tx.buffer.slice ((s.tx.queue i).offset + (s.tx.queue i).pos) n).map
      (Prod.mk (s.frameOf i)) = (s.tagged (s.frameOf i)).take ((s.tx.queue i).pos + n) := by
  have hcontent : s.tagged (s.frameOf i) = (s.tx.buffer.slice (s.tx.queue i).offset
      (s.tx.len i)).map (Prod.mk (s.frameOf i)) := by
    unfold TxSystem.tagged
    rw [(h.frame i hi).2]
    rfl
  rw [TxSystem.headPart, hcontent, ← List.map_take, ← List.map_take, ← List.map_append,
    Memory.slice_take _ _ (by omega), Memory.slice_take _ _ hn, Memory.slice_append]

/-- The host takes the next `n` bytes of the frame at the head of a queue. -/
theorem FrameInv.accept (h : FrameInv config s q) (hp : (s.peers p).stream = some stream)
    (hhead : (q p).head? = some i) (hn : (s.tx.queue i).pos + n ≤ s.tx.len i)
    {sent : Nat → List (Nat × UInt8)}
    (hsent : ∀ r, sent r = s.sent r ++ if r = stream then
      (s.tx.buffer.slice ((s.tx.queue i).offset + (s.tx.queue i).pos) n).map (Prod.mk (s.frameOf i))
      else []) :
    FrameInv config { s with
      tx := s.tx.setItem i { s.tx.queue i with pos := (s.tx.queue i).pos + n }
      sent := sent } q := by
  have hpmax := h.inside p stream hp
  have hi : i ∈ q p := List.mem_of_head? hhead
  have hused : s.tx.Used config i := (h.tx.queued p hpmax i hi).1
  have htx := h.tx.setItem (i := i) { s.tx.queue i with pos := (s.tx.queue i).pos + n }
    rfl rfl rfl rfl rfl rfl fun _ => hn
  have hcontent := s.tx.content_setItem_pos i ((s.tx.queue i).pos + n)
  have hself := s.tx.setItem_self i { s.tx.queue i with pos := (s.tx.queue i).pos + n }
  have hother : ∀ j, j ≠ i →
      (s.tx.setItem i { s.tx.queue i with pos := (s.tx.queue i).pos + n }).queue j = s.tx.queue j :=
    fun j hj => Tx.setItem_of_ne _ _ hj
  generalize s.tx.setItem i { s.tx.queue i with pos := (s.tx.queue i).pos + n } = tx
    at htx hcontent hself hother
  have husedIff : ∀ j, tx.Used config j ↔ s.tx.Used config j := by
    intro j
    rw [htx.used_iff, h.tx.used_iff]
  have hsentOther : ∀ r, r ≠ stream → sent r = s.sent r := by
    intro r hr
    rw [hsent, if_neg hr, List.append_nil]
  refine { h with
    tx := htx
    waiting := ?waiting
    frame := ?frame
    distinct := fun j k hj hk => h.distinct j k ((husedIff j).mp hj) ((husedIff k).mp hk)
    unused := ?unused
    current := ?current
    past := ?past }
  case waiting =>
    intro r hr j hj
    rw [hother j (h.ne_of_mem_tail hpmax hr hhead hj)]
    exact h.waiting r hr j hj
  case frame =>
    intro j hj
    have hju := (husedIff j).mp hj
    exact ⟨(h.frame j hju).1, (h.frame j hju).2.trans (hcontent j).symm⟩
  case unused =>
    intro r hr
    have hne : r ≠ stream := by
      rintro rfl
      exact hr (h.known p r hp)
    exact (hsentOther r hne).trans (h.unused r hr)
  case current =>
    intro r stream' hr
    rcases h.current r stream' hr with ⟨done, hdone, heq⟩
    refine ⟨done, ⟨hdone.nodup, hdone.known, fun j hj => hdone.gone j ((husedIff j).mp hj)⟩, ?_⟩
    by_cases hrs : stream' = stream
    · subst hrs
      obtain rfl : r = p := h.own r p stream' hr hp
      dsimp only
      rw [hsent, if_pos rfl, heq, List.append_assoc]
      congr 1
      cases hq : q r with
      | nil =>
        rw [hq] at hi
        cases hi
      | cons k l =>
        rw [hq] at hhead
        obtain rfl : k = i := Option.some.inj hhead
        rw [h.headPart_append hused hn, TxSystem.headPart, hself]
        rfl
    · dsimp only
      rw [hsentOther stream' hrs, heq]
      congr 1
      symm
      apply TxSystem.headPart_congr
      intro j hj
      have hrp : r ≠ p := by
        rintro rfl
        exact hrs (Option.some.inj (hr.symm.trans hp))
      refine ⟨rfl, ?_⟩
      dsimp only
      rw [hother j (h.ne_of_mem hpmax (h.inside r stream' hr) hrp hi hj)]
  case past =>
    intro r hr
    have hne : r ≠ stream := by
      rintro rfl
      exact hr p hp
    rcases h.past r hr with ⟨hencoded, done, last, rest, hnd, hknown, hrest, heq⟩
    exact ⟨hencoded, done, last, rest, hnd, hknown, hrest, (hsentOther r hne).trans heq⟩

end Accept

end LeanLibp2p.Gossipsub
