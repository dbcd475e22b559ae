import LeanLibp2p.Gossipsub.Router.Footprint
import LeanLibp2p.Lib.Least
import Mathlib.Data.List.Lex
import Mathlib.Data.Prod.Lex

/-!
# The order of ranks

Peers are compared by a hash of their ids under a salt, then by the ids, then by their slots. That
is a strict total order of the slots, so the loops of `gossipsub_state.c` that keep the best
candidate find the least one.
-/

namespace LeanLibp2p.Gossipsub

open LeanLibp2p.Lib

/-- The order of peer ids is that of the lists of their bytes. -/
theorem peerIdLt_iff {a b : Bytes} :
    peerIdLt a b = true ↔ a.map UInt8.toNat < b.map UInt8.toNat := by
  induction a generalizing b with
  | nil =>
    cases b with
    | nil => simp [peerIdLt]
    | cons y ys => simp [peerIdLt]
  | cons x xs ih =>
    cases b with
    | nil => simp [peerIdLt]
    | cons y ys =>
      rw [peerIdLt, List.map_cons, List.map_cons, List.cons_lt_cons_iff]
      rcases Nat.lt_trichotomy x.toNat y.toNat with hlow | heq | hhigh
      · rw [if_pos (UInt8.lt_iff_toNat_lt.mpr hlow)]
        simp [hlow]
      · obtain rfl := UInt8.toNat_inj.mp heq
        simp [ih]
      · rw [if_neg (by rw [UInt8.lt_iff_toNat_lt]; omega),
          if_pos (UInt8.lt_iff_toNat_lt.mpr hhigh)]
        simp only [Bool.false_eq_true, false_iff]
        omega

/-- `gossipsub_rank_before` for the ranks that two peers have under a salt. -/
def ranksBefore (r : Router) (salt : UInt64) (p q : Nat) : Bool :=
  rankBefore r (peerRank (r.peers p).peerId salt) p (peerRank (r.peers q).peerId salt) q

/-- What peers are compared by: the rank, then the bytes of the id, then the slot. -/
def rankKey (r : Router) (salt : UInt64) (p : Nat) : ℕ ×ₗ List ℕ ×ₗ ℕ :=
  toLex ((peerRank (r.peers p).peerId salt).toNat,
    toLex ((r.peers p).peerId.map UInt8.toNat, p))

theorem bytesKey_injective {a b : Bytes} (h : a.map UInt8.toNat = b.map UInt8.toNat) : a = b :=
  List.map_injective_iff.mpr (fun _ _ hxy => UInt8.toNat_inj.mp hxy) h

theorem ranksBefore_iff {r : Router} {salt : UInt64} {p q : Nat} :
    ranksBefore r salt p q = true ↔ rankKey r salt p < rankKey r salt q := by
  unfold ranksBefore rankBefore rankKey
  rw [Prod.Lex.toLex_lt_toLex, Prod.Lex.toLex_lt_toLex]
  simp only [UInt64.lt_iff_toNat_lt, peerIdLt_iff]
  rcases Nat.lt_trichotomy (peerRank (r.peers p).peerId salt).toNat
    (peerRank (r.peers q).peerId salt).toNat with hlow | heq | hhigh
  · simp [hlow]
  · rw [if_neg (by omega), if_neg (by omega)]
    rcases lt_trichotomy ((r.peers p).peerId.map UInt8.toNat)
      ((r.peers q).peerId.map UInt8.toNat) with hid | hid | hid
    · simp [heq, hid]
    · simp [heq, hid]
    · simp [heq, hid, hid.ne', hid.not_gt]
  · rw [if_neg (by omega), if_pos hhigh]
    simp [hhigh.ne', hhigh.not_gt]

/-- No two slots compare as equal. -/
theorem ranksBefore_strictTotal (r : Router) (salt : UInt64) :
    StrictTotal (ranksBefore r salt) := by
  refine @StrictTotal.of_key _ _ _ _ (rankKey r salt) (fun _ _ => ranksBefore_iff) ?_
  intro p q hpq
  exact congrArg (fun key => (ofLex (ofLex key).2).2) hpq

/-- Among peers with different ids the slots do not count. -/
theorem ranksBefore_congr {r r' : Router} {salt : UInt64} {p q p' q' : Nat}
    (hp : (r'.peers p').peerId = (r.peers p).peerId)
    (hq : (r'.peers q').peerId = (r.peers q).peerId)
    (hne : (r.peers p).peerId ≠ (r.peers q).peerId) :
    ranksBefore r' salt p' q' = true ↔ ranksBefore r salt p q = true := by
  have hkey : (r.peers p).peerId.map UInt8.toNat ≠ (r.peers q).peerId.map UInt8.toNat :=
    fun heq => hne (bytesKey_injective heq)
  rw [ranksBefore_iff, ranksBefore_iff]
  unfold rankKey
  rw [Prod.Lex.toLex_lt_toLex, Prod.Lex.toLex_lt_toLex, Prod.Lex.toLex_lt_toLex,
    Prod.Lex.toLex_lt_toLex, hp, hq]
  simp [hkey]

theorem lowestRank_eq (config : Config) (r : Router) (salt : UInt64) (candidate : Nat → Bool) :
    lowestRank config r salt candidate =
      least (ranksBefore r salt) candidate (List.range config.capacity.maxPeers) := by
  unfold lowestRank least
  congr 1
  funext best p
  cases best <;> rfl

section Agrees

variable {config : Config} {touched : List Part} {r r' : Router}

/-- The order depends on the ids of the peers. -/
theorem ranksBefore_of_agrees (hagrees : Router.Agrees touched r r') (hpeers : .peers ∉ touched)
    (salt : UInt64) : ranksBefore r' salt = ranksBefore r salt := by
  funext p q
  unfold ranksBefore rankBefore
  rw [hagrees.peer hpeers p Peer.peerId fun _ => rfl,
    hagrees.peer hpeers q Peer.peerId fun _ => rfl]

theorem peerSubscribed_of_agrees (hagrees : Router.Agrees touched r r')
    (hpeerTopics : .peerTopics ∉ touched) : peerSubscribed config r' = peerSubscribed config r := by
  have heq : r'.peerTopics = r.peerTopics := hagrees.eq .peerTopics hpeerTopics
  unfold peerSubscribed
  rw [heq]

theorem meshContains_of_agrees (hagrees : Router.Agrees touched r r') (hmesh : .mesh ∉ touched) :
    meshContains config r' = meshContains config r := by
  have heq : r'.mesh = r.mesh := hagrees.eq .mesh hmesh
  unfold meshContains
  rw [heq]

theorem isWriter_of_agrees (hagrees : Router.Agrees touched r r') (hpeers : .peers ∉ touched) :
    r'.isWriter = r.isWriter := by
  funext p
  unfold Router.isWriter
  rw [hagrees.peer hpeers p Peer.used fun _ => rfl, hagrees.peer hpeers p Peer.stream fun _ => rfl]

/-- Whom to gossip to depends on the peers, their subscriptions and the mesh. -/
theorem peerGossipEligible_of_agrees (hagrees : Router.Agrees touched r r')
    (hdisjoint : ∀ part ∈ [Part.peers, .peerTopics, .mesh], part ∉ touched) :
    peerGossipEligible config r' = peerGossipEligible config r := by
  have hpeers : Part.peers ∉ touched := hdisjoint _ (by decide)
  funext t p
  unfold peerGossipEligible
  rw [isWriter_of_agrees hagrees hpeers, hagrees.peer hpeers p Peer.explicitPeer fun _ => rfl,
    peerSubscribed_of_agrees hagrees (hdisjoint _ (by decide)),
    meshContains_of_agrees hagrees (hdisjoint _ (by decide))]

end Agrees

end LeanLibp2p.Gossipsub
