import LeanLibp2p.Gossipsub.Tx.Queue
import LeanLibp2p.Lib.Segment
import Mathlib.Data.List.Perm.Subperm

/-!
# The lists of the transmit queue

What the links of the item table mean: each peer has a list of items, priority items first.
`PeerQueue` says that the transmit fields of a peer describe a list; the lemmas say which list
they describe after linking and unlinking an item.
-/

namespace LeanLibp2p.Gossipsub

open LeanLibp2p.Lib

variable {config : Config} {tx : Tx}

/-- The link of an item. -/
def Tx.next (tx : Tx) (i : Nat) : Option Nat := (tx.queue i).next

/-- The items of a list that go first. -/
def Tx.priorityItems (tx : Tx) (l : List Nat) : List Nat := l.filter fun i => (tx.queue i).priority

/-- The items of a list that go last. -/
def Tx.normalItems (tx : Tx) (l : List Nat) : List Nat := l.filter fun i => !(tx.queue i).priority

/-- The transmit fields of peer `p` describe the list `l`. -/
structure PeerQueue (tx : Tx) (p : Nat) (l : List Nat) : Prop where
  linked : Segment tx.next (tx.peer p).head l none
  nodup : l.Nodup
  tail_eq : (tx.peer p).tail = l.getLast?
  priorityTail_eq : (tx.peer p).priorityTail = (tx.priorityItems l).getLast?
  depth_eq : (tx.peer p).queueDepth = l.length
  priorityDepth_eq : (tx.peer p).priorityDepth = (tx.priorityItems l).length
  sorted : l = tx.priorityItems l ++ tx.normalItems l

theorem Tx.priorityItems_congr {tx tx' : Tx} {l : List Nat}
    (h : ∀ i ∈ l, (tx'.queue i).priority = (tx.queue i).priority) :
    tx'.priorityItems l = tx.priorityItems l := by
  unfold Tx.priorityItems
  exact List.filter_congr fun i hi => h i hi

theorem Tx.normalItems_congr {tx tx' : Tx} {l : List Nat}
    (h : ∀ i ∈ l, (tx'.queue i).priority = (tx.queue i).priority) :
    tx'.normalItems l = tx.normalItems l := by
  unfold Tx.normalItems
  exact List.filter_congr fun i hi => by rw [h i hi]

theorem Tx.mem_priorityItems {l : List Nat} {i : Nat} :
    i ∈ tx.priorityItems l ↔ i ∈ l ∧ (tx.queue i).priority = true := by
  simp [Tx.priorityItems]

theorem Tx.mem_normalItems {l : List Nat} {i : Nat} :
    i ∈ tx.normalItems l ↔ i ∈ l ∧ (tx.queue i).priority = false := by
  simp [Tx.normalItems]

/-- Priority items stand before normal ones. -/
theorem Tx.sorted_iff (tx : Tx) {l : List Nat} :
    l = tx.priorityItems l ++ tx.normalItems l ↔
      l.Pairwise fun i j => (tx.queue j).priority = true → (tx.queue i).priority = true := by
  constructor
  · intro h
    rw [h, List.pairwise_append]
    refine ⟨?_, ?_, ?_⟩
    · rw [List.pairwise_iff_forall_sublist]
      intro i j hij _
      exact (Tx.mem_priorityItems.mp (hij.subset (by simp))).2
    · rw [List.pairwise_iff_forall_sublist]
      intro i j hij hj
      have hnormal := (Tx.mem_normalItems.mp (hij.subset (show j ∈ [i, j] by simp))).2
      rw [hj] at hnormal
      cases hnormal
    · intro i hi _ _ _
      exact (Tx.mem_priorityItems.mp hi).2
  · intro h
    unfold Tx.priorityItems Tx.normalItems
    induction l with
    | nil => rfl
    | cons i l ih =>
      rcases List.pairwise_cons.mp h with ⟨hi, hl⟩
      by_cases hp : (tx.queue i).priority = true
      · simp only [List.filter_cons, hp, if_true, Bool.not_true, Bool.false_eq_true, if_false,
          List.cons_append]
        rw [← ih hl]
      · have hnone : ∀ j ∈ l, (tx.queue j).priority = false := by
          intro j hj
          cases hpj : (tx.queue j).priority with
          | false => rfl
          | true => exact absurd (hi j hj hpj) hp
        have hpf : (tx.queue i).priority = false := by simpa using hp
        have hempty : l.filter (fun j => (tx.queue j).priority) = [] := by
          rw [List.filter_eq_nil_iff]
          intro j hj
          simp [hnone j hj]
        have hfull : l.filter (fun j => !(tx.queue j).priority) = l := by
          rw [List.filter_eq_self]
          intro j hj
          simp [hnone j hj]
        simp [hpf, hempty, hfull]

namespace PeerQueue

variable {tx tx' : Tx} {p : Nat} {l : List Nat}

/-- A list only depends on the fields of its peer and on the links and classes of its items. -/
theorem congr (h : PeerQueue tx p l) (hhead : (tx'.peer p).head = (tx.peer p).head)
    (htail : (tx'.peer p).tail = (tx.peer p).tail)
    (hptail : (tx'.peer p).priorityTail = (tx.peer p).priorityTail)
    (hdepth : (tx'.peer p).queueDepth = (tx.peer p).queueDepth)
    (hpdepth : (tx'.peer p).priorityDepth = (tx.peer p).priorityDepth)
    (hnext : ∀ i ∈ l, tx'.next i = tx.next i)
    (hprio : ∀ i ∈ l, (tx'.queue i).priority = (tx.queue i).priority) : PeerQueue tx' p l where
  linked := by
    rw [hhead]
    exact h.linked.congr hnext
  nodup := h.nodup
  tail_eq := by rw [htail, h.tail_eq]
  priorityTail_eq := by rw [hptail, h.priorityTail_eq, Tx.priorityItems_congr hprio]
  depth_eq := by rw [hdepth, h.depth_eq]
  priorityDepth_eq := by rw [hpdepth, h.priorityDepth_eq, Tx.priorityItems_congr hprio]
  sorted := by
    rw [Tx.priorityItems_congr hprio, Tx.normalItems_congr hprio]
    exact h.sorted

theorem head_eq (h : PeerQueue tx p l) : (tx.peer p).head = l.head? := h.linked.head_eq

theorem eq_nil_of_depth (h : PeerQueue tx p l) (hdepth : (tx.peer p).queueDepth = 0) : l = [] := by
  rw [h.depth_eq] at hdepth
  exact List.eq_nil_of_length_eq_zero hdepth

/-- The fields of a peer without items. -/
theorem of_empty (hhead : (tx.peer p).head = none) (htail : (tx.peer p).tail = none)
    (hptail : (tx.peer p).priorityTail = none) (hdepth : (tx.peer p).queueDepth = 0)
    (hpdepth : (tx.peer p).priorityDepth = 0) : PeerQueue tx p [] :=
  ⟨hhead, List.nodup_nil, htail, hptail, hdepth, hpdepth, rfl⟩

end PeerQueue

/-! ## Linking -/

/-- Where a new item goes. -/
def Tx.insertItem (tx : Tx) (l : List Nat) (i : Nat) (priority : Bool) : List Nat :=
  if priority then tx.priorityItems l ++ i :: tx.normalItems l else l ++ [i]

theorem Tx.insertItem_perm (tx : Tx) {l : List Nat} (hsorted : l = tx.priorityItems l ++
    tx.normalItems l) (i : Nat) (priority : Bool) : (tx.insertItem l i priority).Perm (i :: l) := by
  unfold Tx.insertItem
  split
  · refine List.perm_middle.trans ?_
    rw [← hsorted]
  · exact List.perm_append_singleton i l

/-- The class lists of a list with a new item. -/
theorem Tx.insertItem_classes (tx : Tx) (l : List Nat) {i : Nat} {priority : Bool}
    (hi : (tx.queue i).priority = priority) :
    tx.priorityItems (tx.insertItem l i priority) =
        (if priority then tx.priorityItems l ++ [i] else tx.priorityItems l) ∧
      tx.normalItems (tx.insertItem l i priority) =
        (if priority then tx.normalItems l else tx.normalItems l ++ [i]) := by
  cases priority with
  | false => simp [Tx.insertItem, Tx.priorityItems, Tx.normalItems, hi]
  | true =>
    have hp : tx.priorityItems (tx.priorityItems l) = tx.priorityItems l := by
      simp [Tx.priorityItems]
    have hpn : tx.priorityItems (tx.normalItems l) = [] := by
      simp [Tx.priorityItems, Tx.normalItems]
    have hnp : tx.normalItems (tx.priorityItems l) = [] := by
      simp [Tx.priorityItems, Tx.normalItems]
    have hn : tx.normalItems (tx.normalItems l) = tx.normalItems l := by
      simp [Tx.normalItems]
    simp only [Tx.priorityItems, Tx.normalItems] at hp hpn hnp hn ⊢
    simp only [Tx.insertItem, Tx.priorityItems, Tx.normalItems, if_true, List.filter_append,
      List.filter_cons, hi, Bool.not_true, Bool.false_eq_true, if_false]
    rw [hp, hpn, hnp, hn]
    exact ⟨rfl, rfl⟩

@[simp] theorem Tx.next_setItem (tx : Tx) (i : Nat) (item : TxItem) :
    (tx.setItem i item).next = Function.update tx.next i item.next := by
  funext j
  by_cases hj : j = i
  · subst hj
    simp [Tx.next]
  · simp [Tx.next, hj]

@[simp] theorem Tx.next_setPeer (tx : Tx) (p : Nat) (peer : PeerTx) :
    (tx.setPeer p peer).next = tx.next := rfl

/-- From `tx` to `tx'` only links of the items in `on` and fields of peer `p` changed. -/
structure Tx.Relinks (tx tx' : Tx) (p : Nat) (on : List Nat) : Prop where
  peers : ∀ q, q ≠ p → tx'.peer q = tx.peer q
  items : ∀ j, ∃ n, tx'.queue j = { tx.queue j with next := n }
  others : ∀ j, j ∉ on → tx'.queue j = tx.queue j
  buffer : tx'.buffer = tx.buffer
  bufferUsed : tx'.bufferUsed = tx.bufferUsed
  queueLen : tx'.queueLen = tx.queueLen

namespace Tx.Relinks

variable {tx tx' tx'' : Tx} {p : Nat} {on on' : List Nat}

theorem refl (tx : Tx) (p : Nat) (on : List Nat) : Tx.Relinks tx tx p on :=
  ⟨fun _ _ => rfl, fun _ => ⟨_, rfl⟩, fun _ _ => rfl, rfl, rfl, rfl⟩

theorem trans (h : Tx.Relinks tx tx' p on) (h' : Tx.Relinks tx' tx'' p on) :
    Tx.Relinks tx tx'' p on where
  peers q hq := (h'.peers q hq).trans (h.peers q hq)
  items j := by
    rcases h.items j with ⟨n, hn⟩
    rcases h'.items j with ⟨m, hm⟩
    exact ⟨m, by rw [hm, hn]⟩
  others j hj := (h'.others j hj).trans (h.others j hj)
  buffer := h'.buffer.trans h.buffer
  bufferUsed := h'.bufferUsed.trans h.bufferUsed
  queueLen := h'.queueLen.trans h.queueLen

theorem mono (h : Tx.Relinks tx tx' p on) (hsub : on ⊆ on') : Tx.Relinks tx tx' p on' :=
  { h with others := fun j hj => h.others j fun hon => hj (hsub hon) }

theorem setPeer (tx : Tx) (p : Nat) (peer : PeerTx) (on : List Nat) :
    Tx.Relinks tx (tx.setPeer p peer) p on :=
  ⟨fun _ hq => Tx.setPeer_of_ne tx peer hq, fun _ => ⟨_, rfl⟩, fun _ _ => rfl, rfl, rfl, rfl⟩

theorem setNext (tx : Tx) (p : Nat) {i : Nat} (n : Option Nat) (hi : i ∈ on) :
    Tx.Relinks tx (tx.setItem i { tx.queue i with next := n }) p on where
  peers _ _ := rfl
  items j := by
    by_cases hj : j = i
    · subst hj
      exact ⟨n, Tx.setItem_self ..⟩
    · exact ⟨(tx.queue j).next, Tx.setItem_of_ne tx _ hj⟩
  others j hj := by
    rw [Tx.setItem_of_ne]
    rintro rfl
    exact hj hi
  buffer := rfl
  bufferUsed := rfl
  queueLen := rfl

/-- Relinking leaves the other fields of an item alone. -/
theorem priority (h : Tx.Relinks tx tx' p on) (j : Nat) :
    (tx'.queue j).priority = (tx.queue j).priority := by
  rcases h.items j with ⟨n, hn⟩
  rw [hn]

end Tx.Relinks

/-- From `tx` to `tx'` the list `l` of peer `p` became `l'`, up to the counters. -/
structure Tx.LinksItem (tx tx' : Tx) (p i : Nat) (l l' : List Nat) : Prop where
  linked : Segment tx'.next (tx'.peer p).head l' none
  tail_eq : (tx'.peer p).tail = l'.getLast?
  priorityTail_eq : (tx'.peer p).priorityTail = (tx.priorityItems l').getLast?
  depth_eq : (tx'.peer p).queueDepth = (tx.peer p).queueDepth
  priorityDepth_eq : (tx'.peer p).priorityDepth = (tx.peer p).priorityDepth
  relinks : Tx.Relinks tx tx' p (i :: l)

namespace PeerQueue

variable {tx : Tx} {p i : Nat} {l : List Nat}

/-- The first item of a peer. -/
theorem link_first (hnext : tx.next i = none) {priority : Bool}
    (hprio : (tx.queue i).priority = priority) :
    Tx.LinksItem tx (tx.setPeer p { tx.peer p with
      head := some i, tail := some i, priorityTail := if priority then some i else none })
      p i [] [i] where
  linked := by
    rw [Tx.setPeer_self]
    exact ⟨rfl, hnext⟩
  tail_eq := by
    rw [Tx.setPeer_self]
    rfl
  priorityTail_eq := by
    rw [Tx.setPeer_self]
    cases priority <;> simp [Tx.priorityItems, hprio]
  depth_eq := by rw [Tx.setPeer_self]
  priorityDepth_eq := by rw [Tx.setPeer_self]
  relinks := Tx.Relinks.setPeer ..

/-- A normal item after the last item. -/
theorem link_last (h : PeerQueue tx p l) (hi : i ∉ l) (hnext : tx.next i = none)
    (hprio : (tx.queue i).priority = false) {tail : Nat} (htail : (tx.peer p).tail = some tail) :
    Tx.LinksItem tx ((tx.setItem tail { tx.queue tail with next := some i }).setPeer p
      { tx.peer p with tail := some i }) p i l (l ++ [i]) := by
  have hlast : l.getLast? = some tail := by rw [← h.tail_eq, htail]
  rcases List.eq_nil_or_concat l with rfl | ⟨xs, x, hl⟩
  · cases hlast
  rw [List.concat_eq_append] at hl
  have hx : x = tail := by
    rw [hl, List.getLast?_concat] at hlast
    exact Option.some.inj hlast
  subst hx
  refine ⟨?_, ?_, ?_, ?_, ?_, ?_⟩
  · rw [Tx.next_setPeer, Tx.next_setItem, Tx.setPeer_self, hl]
    have hlinked := h.linked
    rw [hl] at hlinked
    exact hlinked.insert_last (hl ▸ h.nodup) (hl ▸ hi) hnext
  · rw [Tx.setPeer_self, List.getLast?_concat]
  · rw [Tx.setPeer_self]
    simpa [Tx.priorityItems, hprio] using h.priorityTail_eq
  · rw [Tx.setPeer_self]
  · rw [Tx.setPeer_self]
  · refine (Tx.Relinks.setNext tx p (some i) ?_).trans (Tx.Relinks.setPeer ..)
    simp [hl]

/-- A priority item before the first item, when none has priority. -/
theorem link_front (h : PeerQueue tx p l) (hne : l ≠ []) (hi : i ∉ l)
    (hprio : (tx.queue i).priority = true) (hnone : tx.priorityItems l = []) :
    Tx.LinksItem tx ((tx.setItem i { tx.queue i with next := (tx.peer p).head }).setPeer p
      { tx.peer p with head := some i, priorityTail := some i }) p i l (i :: l) := by
  refine ⟨?_, ?_, ?_, ?_, ?_, ?_⟩
  · rw [Tx.next_setPeer, Tx.next_setItem, Tx.setPeer_self]
    refine ⟨rfl, ?_⟩
    rw [Function.update_self]
    exact h.linked.update hi _
  · rw [Tx.setPeer_self]
    change (tx.peer p).tail = _
    rw [h.tail_eq, List.getLast?_cons]
    cases hlast : l.getLast? with
    | none => exact absurd (List.getLast?_eq_none_iff.mp hlast) hne
    | some x => rfl
  · rw [Tx.setPeer_self]
    unfold Tx.priorityItems at hnone ⊢
    rw [List.filter_cons, hprio, if_pos rfl, hnone]
    rfl
  · rw [Tx.setPeer_self]
  · rw [Tx.setPeer_self]
  · exact (Tx.Relinks.setNext tx p _ (by simp)).trans (Tx.Relinks.setPeer ..)

/-- A priority item after the last one that has priority. -/
theorem link_after (h : PeerQueue tx p l) (hi : i ∉ l) (hprio : (tx.queue i).priority = true)
    {xs : List Nat} {last : Nat} (hl : tx.priorityItems l = xs ++ [last]) :
    Tx.LinksItem tx (((tx.setItem i { tx.queue i with next := tx.next last }).setItem last
        { tx.queue last with next := some i }).setPeer p { tx.peer p with
          tail := if (tx.peer p).tail = some last then some i else (tx.peer p).tail
          priorityTail := some i })
      p i l (tx.priorityItems l ++ i :: tx.normalItems l) := by
  have hsorted := h.sorted
  rw [hl, List.append_assoc, List.singleton_append] at hsorted
  have hlast : last ∈ tx.priorityItems l := by simp [hl]
  rcases Tx.mem_priorityItems.mp hlast with ⟨hmem, hlastPrio⟩
  have hil : i ≠ last := by
    rintro rfl
    exact hi hmem
  refine ⟨?_, ?_, ?_, ?_, ?_, ?_⟩
  · rw [Tx.next_setPeer, Tx.next_setItem, Tx.next_setItem, Tx.setPeer_self, hl, List.append_assoc,
      List.singleton_append]
    have hlinked := h.linked
    rw [hsorted] at hlinked
    exact hlinked.insert_after (hsorted ▸ h.nodup) (hsorted ▸ hi)
  · rw [Tx.setPeer_self]
    dsimp only
    rw [h.tail_eq, List.getLast?_append, List.getLast?_cons]
    cases hn : tx.normalItems l with
    | nil =>
      rw [hn] at hsorted
      have hx : l.getLast? = some last := by rw [hsorted, List.getLast?_concat]
      simp [hx]
    | cons j ys =>
      have hnl : l.getLast? = some (ys.getLast?.getD j) := by
        rw [hn] at hsorted
        rw [hsorted, List.getLast?_append, List.getLast?_cons, List.getLast?_cons]
        rfl
      have hne : ys.getLast?.getD j ≠ last := by
        intro heq
        have hnormal : last ∈ tx.normalItems l := by
          rw [hn, ← heq]
          cases hy : ys.getLast? with
          | none => simp
          | some k => simp [List.mem_of_getLast? hy]
        have := (Tx.mem_normalItems.mp hnormal).2
        rw [hlastPrio] at this
        cases this
      simp [hnl, hne, List.getLast?_cons]
  · rw [Tx.setPeer_self]
    simp [Tx.priorityItems, Tx.normalItems, hprio, List.getLast?_append]
  · rw [Tx.setPeer_self]
  · rw [Tx.setPeer_self]
  · have hset := Tx.Relinks.setNext (tx.setItem i { tx.queue i with next := tx.next last }) p
      (some i) (show last ∈ i :: l by simp [hmem])
    rw [Tx.setItem_of_ne _ _ hil.symm] at hset
    exact ((Tx.Relinks.setNext tx p _ (show i ∈ i :: l by simp)).trans hset).trans
      (Tx.Relinks.setPeer ..)

/-- Linking a fresh item puts it where `insertItem` says. -/
theorem link (h : PeerQueue tx p l) (hi : i ∉ l) (hnext : tx.next i = none) {priority : Bool}
    (hprio : (tx.queue i).priority = priority) :
    Tx.LinksItem tx (txLinkPeerItem tx p i priority) p i l (tx.insertItem l i priority) := by
  unfold txLinkPeerItem
  dsimp only
  by_cases hdepth : (tx.peer p).queueDepth = 0
  · have hl := h.eq_nil_of_depth hdepth
    subst hl
    have hlist : tx.insertItem [] i priority = [i] := by
      cases priority <;> simp [Tx.insertItem, Tx.priorityItems, Tx.normalItems]
    rw [if_pos hdepth, hlist]
    exact link_first hnext hprio
  rw [if_neg hdepth]
  have hne : l ≠ [] := by
    rintro rfl
    exact hdepth h.depth_eq
  cases priority with
  | false =>
    have hlist : tx.insertItem l i false = l ++ [i] := by simp [Tx.insertItem]
    rw [if_pos rfl, hlist]
    cases htail : (tx.peer p).tail with
    | none =>
      rw [h.tail_eq] at htail
      exact absurd (List.getLast?_eq_none_iff.mp htail) hne
    | some tail => exact link_last h hi hnext hprio htail
  | true =>
    have hlist : tx.insertItem l i true = tx.priorityItems l ++ i :: tx.normalItems l := by
      simp [Tx.insertItem]
    rw [if_neg Bool.noConfusion, hlist]
    rcases List.eq_nil_or_concat (tx.priorityItems l) with hnil | ⟨xs, last, hl⟩
    · have hptail : (tx.peer p).priorityTail = none := by
        rw [h.priorityTail_eq, hnil]
        rfl
      have hnormal : tx.normalItems l = l := by
        have hsorted := h.sorted
        rw [hnil, List.nil_append] at hsorted
        exact hsorted.symm
      rw [hptail, hnil, hnormal]
      exact link_front h hne hi hprio hnil
    · rw [List.concat_eq_append] at hl
      have hptail : (tx.peer p).priorityTail = some last := by
        rw [h.priorityTail_eq, hl, List.getLast?_concat]
      have hil : last ≠ i := by
        rintro rfl
        have hmem : last ∈ tx.priorityItems l := by simp [hl]
        exact hi (Tx.mem_priorityItems.mp hmem).1
      rw [hptail]
      dsimp only
      rw [Tx.setItem_of_ne _ _ hil]
      exact link_after h hi hprio hl

end PeerQueue

/-! ## Unlinking -/

/-- The slots of a list exist and are in use. -/
def Tx.Live (config : Config) (tx : Tx) (l : List Nat) : Prop :=
  ∀ i ∈ l, i < config.capacity.maxTxRpcQueue ∧ (tx.queue i).used = true

/-- A list of distinct slots is not longer than the table. -/
theorem Tx.Live.length_le {l : List Nat} (h : tx.Live config l)
    (hnd : l.Nodup) : l.length ≤ config.capacity.maxTxRpcQueue := by
  have hsub : l ⊆ List.range config.capacity.maxTxRpcQueue := fun i hi =>
    List.mem_range.mpr (h i hi).1
  simpa using (List.subperm_of_subset hnd hsub).length_le

/-- The recount walks the whole list. -/
theorem txRecountLoop_eq {xs : List Nat} {start : Option Nat}
    {fuel : Nat} (hlinked : Segment tx.next start xs none) (hlive : tx.Live config xs)
    (hfuel : xs.length ≤ fuel) (r : Recount) :
    txRecountLoop config tx fuel start r =
      ⟨r.depth + xs.length, r.priorityDepth + (tx.priorityItems xs).length,
        xs.getLast?.or r.tail, (tx.priorityItems xs).getLast?.or r.priorityTail⟩ := by
  induction xs generalizing start fuel r with
  | nil =>
    rw [Segment.nil_iff] at hlinked
    subst hlinked
    cases fuel <;> rfl
  | cons i xs ih =>
    rcases hlinked with ⟨rfl, hrest⟩
    cases fuel with
    | zero => simp at hfuel
    | succ fuel =>
      rcases hlive i (by simp) with ⟨hlt, hused⟩
      have hnot : ¬ (config.capacity.maxTxRpcQueue ≤ i ∨ (tx.queue i).used = false) := by
        rw [hused]
        simp only [Bool.true_eq_false, or_false]
        omega
      rw [txRecountLoop, if_neg hnot]
      change txRecountLoop config tx fuel (tx.next i) _ = _
      rw [ih hrest (fun j hj => hlive j (by simp [hj])) (by simpa using hfuel)]
      cases hp : (tx.queue i).priority with
      | false =>
        simp only [Tx.priorityItems, List.filter_cons, hp, Bool.false_eq_true, if_false,
          List.length_cons, List.getLast?_cons, Recount.mk.injEq, true_and, and_true]
        refine ⟨by omega, ?_⟩
        cases xs.getLast? <;> rfl
      | true =>
        simp only [Tx.priorityItems, List.filter_cons, hp, if_true, List.length_cons,
          List.getLast?_cons, Recount.mk.injEq]
        refine ⟨by omega, by omega, ?_, ?_⟩
        · cases xs.getLast? <;> rfl
        · cases (xs.filter fun j => (tx.queue j).priority).getLast? <;> rfl

/-- The search finds what stands before the item. -/
theorem txFindPrevious_eq {index : Nat} {xs ys : List Nat} {start b : Option Nat}
    (previous : Option Nat) {fuel : Nat} (hlinked : Segment tx.next start (xs ++ index :: ys) b) (hxs : index ∉ xs)
    (hfuel : xs.length < fuel) :
    txFindPrevious tx index fuel previous start = some (xs.getLast?.or previous) := by
  induction xs generalizing start previous fuel with
  | nil =>
    rcases hlinked with ⟨rfl, -⟩
    cases fuel with
    | zero => simp at hfuel
    | succ fuel =>
      rw [txFindPrevious, if_pos rfl]
      rfl
  | cons j xs ih =>
    rcases hlinked with ⟨rfl, hrest⟩
    cases fuel with
    | zero => simp at hfuel
    | succ fuel =>
      have hne : j ≠ index := by
        rintro rfl
        exact hxs (by simp)
      have hlt : xs.length < fuel := by simpa using hfuel
      rw [txFindPrevious, if_neg hne]
      change txFindPrevious tx index fuel (some j) (tx.next j) = _
      rw [ih (some j) hrest (fun h => hxs (by simp [h])) hlt, List.getLast?_cons]
      cases xs.getLast? <;> rfl

/-- An item that is not in the list is not found. -/
theorem txFindPrevious_none {index : Nat} {l : List Nat} {start previous : Option Nat}
    (fuel : Nat) (hlinked : Segment tx.next start l none) (hl : index ∉ l) :
    txFindPrevious tx index fuel previous start = none := by
  induction l generalizing start previous fuel with
  | nil =>
    rw [Segment.nil_iff] at hlinked
    subst hlinked
    cases fuel <;> rfl
  | cons j xs ih =>
    rcases hlinked with ⟨rfl, hrest⟩
    cases fuel with
    | zero => rfl
    | succ fuel =>
      have hne : j ≠ index := by
        rintro rfl
        exact hl (by simp)
      rw [txFindPrevious, if_neg hne]
      exact ih fuel hrest fun h => hl (by simp [h])

/-- The recount restores the fields of a peer from its links. -/
theorem txRecountPeerQueue_spec {p : Nat} {l : List Nat}
    (hp : p < config.capacity.maxPeers) (hlinked : Segment tx.next (tx.peer p).head l none)
    (hnd : l.Nodup) (hlive : tx.Live config l)
    (hsorted : l = tx.priorityItems l ++ tx.normalItems l) :
    PeerQueue (txRecountPeerQueue config tx p) p l ∧
      Tx.Relinks tx (txRecountPeerQueue config tx p) p [] := by
  have hloop := txRecountLoop_eq hlinked hlive (hlive.length_le hnd) ⟨0, 0, none, none⟩
  unfold txRecountPeerQueue
  rw [if_pos hp, hloop]
  refine ⟨?_, Tx.Relinks.setPeer ..⟩
  refine ⟨?_, hnd, ?_, ?_, ?_, ?_, hsorted⟩ <;> rw [Tx.setPeer_self]
  · exact hlinked
  · simp
  · simp only [Option.or_none]
    rfl
  · simp
  · simp only [Nat.zero_add]
    rfl

/-- The transmit state after item `i` was linked past, before the recount. -/
def Tx.linkPast (tx : Tx) (p i : Nat) : Option Nat → Tx
  | none => tx.setPeer p { tx.peer p with head := tx.next i }
  | some previous => tx.setItem previous { tx.queue previous with next := tx.next i }

/-- Unlinking an item takes it out of the list of its peer. -/
theorem txUnlink_spec {p i : Nat} {xs ys : List Nat}
    (hp : p < config.capacity.maxPeers) (h : PeerQueue tx p (xs ++ i :: ys))
    (hlive : tx.Live config (xs ++ i :: ys)) :
    PeerQueue (txUnlink config tx p i) p (xs ++ ys) ∧
      Tx.Relinks tx (txUnlink config tx p i) p (xs ++ ys) := by
  have hnd := h.nodup
  have hix : i ∉ xs := by
    intro hx
    exact (List.nodup_append.mp hnd).2.2 i hx i (by simp) rfl
  have hlen := hlive.length_le hnd
  have hfind := txFindPrevious_eq none h.linked hix
    (show xs.length < config.capacity.maxTxRpcQueue by simp at hlen; omega)
  have hsub : (xs ++ ys).Sublist (xs ++ i :: ys) :=
    (List.Sublist.refl xs).append (List.sublist_cons_self i ys)
  have hlive' : tx.Live config (xs ++ ys) := fun j hj => hlive j (hsub.subset hj)
  obtain ⟨tx₁, htx₁, hlinked, hrelinks⟩ : ∃ tx₁, tx.linkPast p i xs.getLast? = tx₁ ∧
      Segment tx₁.next (tx₁.peer p).head (xs ++ ys) none ∧ Tx.Relinks tx tx₁ p (xs ++ ys) := by
    refine ⟨_, rfl, ?_⟩
    rcases List.eq_nil_or_concat xs with rfl | ⟨zs, previous, hzs⟩
    · refine ⟨?_, Tx.Relinks.setPeer ..⟩
      rw [List.getLast?_nil, Tx.linkPast, Tx.next_setPeer, Tx.setPeer_self]
      exact h.linked.2
    · rw [List.concat_eq_append] at hzs
      subst hzs
      rw [List.getLast?_concat]
      refine ⟨?_, Tx.Relinks.setNext _ _ _ (by simp)⟩
      have hlinked := h.linked
      rw [List.append_assoc, List.singleton_append] at hlinked
      rw [Tx.linkPast, Tx.next_setItem, List.append_assoc, List.singleton_append]
      exact hlinked.remove_after (by simpa using hnd)
  have hprio : ∀ j, (tx₁.queue j).priority = (tx.queue j).priority := hrelinks.priority
  have hlive₁ : tx₁.Live config (xs ++ ys) := by
    intro j hj
    rcases hrelinks.items j with ⟨n, hn⟩
    rw [hn]
    exact hlive' j hj
  have hsorted : xs ++ ys = tx₁.priorityItems (xs ++ ys) ++ tx₁.normalItems (xs ++ ys) := by
    rw [Tx.priorityItems_congr fun j _ => hprio j, Tx.normalItems_congr fun j _ => hprio j]
    exact tx.sorted_iff.mpr ((tx.sorted_iff.mp h.sorted).sublist hsub)
  rcases txRecountPeerQueue_spec hp hlinked (hnd.sublist hsub) hlive₁ hsorted with ⟨hqueue, hcount⟩
  have hunlink : txUnlink config tx p i =
      if ((txRecountPeerQueue config tx₁ p).peer p).queueDepth < config.capacity.maxPeerTxQueue then
        (txRecountPeerQueue config tx₁ p).setPeer p
          { (txRecountPeerQueue config tx₁ p).peer p with queueLimitReported := false }
      else txRecountPeerQueue config tx₁ p := by
    unfold txUnlink
    rw [hfind, Option.or_none]
    subst htx₁
    cases xs.getLast? <;> rfl
  have hcount' : Tx.Relinks tx (txRecountPeerQueue config tx₁ p) p (xs ++ ys) :=
    hrelinks.trans (hcount.mono fun j hj => by cases hj)
  rw [hunlink]
  split
  · refine ⟨hqueue.congr ?_ ?_ ?_ ?_ ?_ (fun _ _ => rfl) (fun _ _ => rfl),
      hcount'.trans (Tx.Relinks.setPeer ..)⟩ <;> rw [Tx.setPeer_self]
  · exact ⟨hqueue, hcount'⟩

end LeanLibp2p.Gossipsub
