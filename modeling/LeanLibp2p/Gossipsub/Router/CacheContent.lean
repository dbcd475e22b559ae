import LeanLibp2p.Gossipsub.Router.CacheInvariant

/-!
# The content of the message cache

No two entries of the cache share a byte of their region, so what is found for an id is what was stored
under it.
-/

namespace LeanLibp2p.Gossipsub

open LeanLibp2p.Lib

/-- No two used entries share bytes of the data region. -/
def Mcache.Apart (mcache : Mcache) : Prop :=
  ∀ i j, i ≠ j → (mcache.entries i).used = true → (mcache.entries j).used = true →
    (mcache.entries i).dataOffset + (mcache.entries i).dataLen ≤ (mcache.entries j).dataOffset ∨
    (mcache.entries j).dataOffset + (mcache.entries j).dataLen ≤ (mcache.entries i).dataOffset

/-- The cache holds stored messages, each in bytes of its own below the data in use, and gives them
    back for their ids. -/
structure CacheContent (config : Config) (r : Router) : Prop where
  dataUsed_le : r.mcache.dataUsed ≤ config.capacity.mcacheBytes
  region : ∀ i, (r.mcache.entries i).used = true →
    (r.mcache.entries i).dataOffset + (r.mcache.entries i).dataLen ≤ r.mcache.dataUsed
  apart : r.mcache.Apart
  holds : ∀ i, (r.mcache.entries i).used = true →
    ∃ m ∈ r.history.messages, (r.mcache.entries i).Holds r.mcache m
  found : ∀ messageId i, mcacheFind config r messageId = some i →
    ∃ m ∈ r.history.messages, m.messageId = messageId.bytes ∧
      entryMessage r.mcache (r.mcache.entries i) =
        { Message.zero with topic := .ptr m.topic, data := .ptr m.data }

/-! ## Regions -/

namespace Mcache.Apart

variable {config : Config} {mcache : Mcache}

theorem makeRoom (h : mcache.Apart) (n : Nat) : (mcache.makeRoom config n).Apart := by
  unfold Mcache.makeRoom
  split
  · intro i j _ hused
    cases hused
  · exact h

/-- The bytes of a new entry are behind those of all others. -/
theorem insert (h : mcache.Apart) (hregion : ∀ i, (mcache.entries i).used = true →
    (mcache.entries i).dataOffset + (mcache.entries i).dataLen ≤ mcache.dataUsed)
    (messageId topic data : Bytes) (origin : Nat) :
    (mcache.insert config messageId topic data origin).Apart := by
  intro i j hne hi hj
  by_cases hnew : i = mcache.next % config.capacity.mcacheSlots
  · subst hnew
    simp only [Mcache.insert, Function.update_self, Function.update_of_ne hne.symm] at hj ⊢
    exact .inr (hregion j hj)
  · by_cases hnew' : j = mcache.next % config.capacity.mcacheSlots
    · subst hnew'
      simp only [Mcache.insert, Function.update_self, Function.update_of_ne hnew] at hi ⊢
      exact .inl (hregion i hi)
    · simp only [Mcache.insert, Function.update_of_ne hnew, Function.update_of_ne hnew'] at hi hj ⊢
      exact h i j hne hi hj

/-- Entries that age keep their bytes. -/
theorem expireTables {r : Router} (h : r.mcache.Apart) (nowUs : Nat) :
    (Gossipsub.expireTables config nowUs r).mcache.Apart := by
  have hentry : ∀ i, ((Gossipsub.expireTables config nowUs r).mcache.entries i).used = true →
      (r.mcache.entries i).used = true ∧
      ((Gossipsub.expireTables config nowUs r).mcache.entries i).dataOffset =
        (r.mcache.entries i).dataOffset ∧
      ((Gossipsub.expireTables config nowUs r).mcache.entries i).dataLen =
        (r.mcache.entries i).dataLen := by
    intro i hused
    unfold Gossipsub.expireTables at hused ⊢
    dsimp only at hused ⊢
    split
    · rename_i hi
      rw [if_pos hi] at hused
      obtain ⟨hold, -, -, hoffset, hlen, -⟩ := CacheInvariant.age_used hused
      exact ⟨hold, hoffset, hlen⟩
    · rename_i hi
      rw [if_neg hi] at hused
      exact ⟨hused, rfl, rfl⟩
  intro i j hne hi hj
  obtain ⟨hi, hoffset, hlen⟩ := hentry i hi
  obtain ⟨hj, hoffset', hlen'⟩ := hentry j hj
  rw [hoffset, hlen, hoffset', hlen']
  exact h i j hne hi hj

end Mcache.Apart

/-- `gossipsub_mcache_store` gives the new entry bytes of its own. -/
theorem mcacheStore_apart {config : Config} {r : Router} {source : Option (Nat × Message)}
    {gated : Bool} {messageId : Bytes} {topic data : Span} (hinv : CacheInvariant config r)
    (h : r.mcache.Apart) :
    (mcacheStore config source gated messageId topic data r).2.mcache.Apart := by
  unfold mcacheStore
  split
  · exact h
  · split
    · exact h
    · rename_i hsizes
      simp only [not_or, Nat.not_lt] at hsizes
      have hroom := (hinv.makeRoom hsizes.2.2.2.2).1
      exact (h.makeRoom data.len).insert hroom.region messageId topic.bytes data.bytes _

/-! ## The content -/

/-- What is found for an id was stored under it. -/
theorem CacheInvariant.found {config : Config} {r : Router} (h : CacheInvariant config r)
    {messageId : Span} {i : Nat} (hfind : mcacheFind config r messageId = some i) :
    ∃ m ∈ r.history.messages, m.messageId = messageId.bytes ∧
      entryMessage r.mcache (r.mcache.entries i) =
        { Message.zero with topic := .ptr m.topic, data := .ptr m.data } := by
  unfold mcacheFind at hfind
  split at hfind
  · cases hfind
  · have hslot := (findSlot_some hfind).2
    simp only [Bool.and_eq_true, decide_eq_true_eq] at hslot
    obtain ⟨m, hm, hholds⟩ := h.holds i hslot.1
    refine ⟨m, List.mem_of_getElem? hm, hholds.messageId.symm.trans hslot.2, ?_⟩
    unfold entryMessage
    rw [hholds.topic, hholds.content]

/-- In every reachable state the cache holds stored messages, each in bytes of its own, and gives them
    back for their ids. -/
theorem cacheContent_run (config : Config) (actions : List Action) :
    CacheContent config (Node.init.run config actions).router := by
  have hboth : CacheInvariant config (Node.init.run config actions).router ∧
      (Node.init.run config actions).router.mcache.Apart := by
    apply Lib.run_keeps (P := fun _ _ => True)
      (I := fun s : Node => CacheInvariant config s.router ∧ s.router.mcache.Apart)
    · exact runMeets_of_forall fun _ _ => trivial
    · refine ⟨CacheInvariant.init, fun i j _ hused => ?_⟩
      cases hused
    · intro s action _ h
      refine cache_step (I := fun r => CacheInvariant config r ∧ r.mcache.Apart) ?_ ?_ ?_ h
      · intro r r' hmcache hmessages hinv
        refine ⟨.of_same hmcache hmessages hinv.1, ?_⟩
        rw [hmcache]
        exact hinv.2
      · intro source gated messageId topic data hsource r hinv
        exact ⟨CacheInvariant.mcacheStore hsource r hinv.1, mcacheStore_apart hinv.1 hinv.2⟩
      · intro nowUs r hinv
        exact ⟨hinv.1.expireTables nowUs, hinv.2.expireTables nowUs⟩
  obtain ⟨hinv, hapart⟩ := hboth
  refine ⟨hinv.dataUsed_le, hinv.region, hapart, ?_, fun messageId i hfind => hinv.found hfind⟩
  intro i hused
  obtain ⟨m, hm, hholds⟩ := hinv.holds i hused
  exact ⟨m, List.mem_of_getElem? hm, hholds⟩

end LeanLibp2p.Gossipsub
