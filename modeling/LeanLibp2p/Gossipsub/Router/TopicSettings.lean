import LeanLibp2p.Gossipsub.Router.Slots

/-!
# Topic settings

What the application set up for a topic. A topic keeps its slot, and only a call that names it changes
its settings.
-/

namespace LeanLibp2p.Gossipsub

open LeanLibp2p.Lib

variable {config : Config} {name : Option Bytes} {b : Bytes} {before topics : Nat → Topic}

/-- The topics in use keep their slots, and all but `name` their settings. -/
def TopicsKept (name : Option Bytes) (before topics : Nat → Topic) : Prop :=
  ∀ t, (before t).used = true → (topics t).used = true ∧ (topics t).topic = (before t).topic ∧
    (some (before t).topic ≠ name → topics t = before t)

/-- The topic whose settings the application changes. -/
def Action.setTopic : Action → Option Bytes
  | .subscribe request => some request.topic.bytes
  | .unsubscribe topic => some topic.bytes
  | _ => none

namespace TopicsKept

theorem refl : TopicsKept name topics topics := fun _ hused => ⟨hused, rfl, fun _ => rfl⟩

/-- A slot is taken that was not in use, or the settings of the topic change. -/
theorem update (h : TopicsKept name before topics) {t : Nat} (topic : Topic)
    (hset : (topics t).used = false ∨ some (topics t).topic = name ∧
      topic.used = (topics t).used ∧ topic.topic = (topics t).topic) :
    TopicsKept name before (Function.update topics t topic) := by
  intro u hu
  obtain ⟨hused, htopic, hsame⟩ := h u hu
  by_cases heq : u = t
  · subst heq
    rw [Function.update_self]
    rcases hset with hfree | ⟨hname, hused', htopic'⟩
    · rw [hused] at hfree
      cases hfree
    · rw [htopic] at hname
      exact ⟨hused'.trans hused, htopic'.trans htopic, fun hne => absurd hname hne⟩
  · rw [Function.update_of_ne heq]
    exact ⟨hused, htopic, hsame⟩

theorem keptByNaming (config : Config) (names : List Bytes) :
    KeptByNaming config names fun r => TopicsKept name before r.topics where
  of_agrees {_ r r'} h hagrees hpart := by
    have htopics : r'.topics = r.topics := hagrees.eq .topics hpart
    rwa [htopics]
  findOrAddTopic {topic} _ r h := by
    rcases findOrAddTopic_spec config topic r with hsame | ⟨t, added, -, hfree, hadded, -⟩
    · rwa [hsame]
    · rw [hadded]
      exact h.update _ (.inl hfree)

theorem subscribe (request : TopicConfig) :
    Comp.Keeps (fun r => TopicsKept (some request.topic.bytes) before r.topics)
      (subscribe config request) := by
  have hkept := @keptByNaming (some request.topic.bytes) before config [request.topic.bytes]
  refine .ite (fun _ => .fail _) fun _ r h => ?_
  refine Comp.keeps_bind (hkept.findOrAddTopic (fun _ => List.mem_cons_self) r h) fun o r' hrun h => ?_
  cases o with
  | none => exact h
  | some t =>
    have hset := h.update ((r'.topics t).subscribe config request)
      (.inr ⟨congrArg some (findOrAddTopic_some hrun).2.2, rfl, rfl⟩)
    exact Comp.Keeps.bind (hkept.of_touches (announceSubscription_touches ..) (by decide))
      (fun _ => hkept.of_touches (meshFillTopic_touches ..) (by decide)) (r'.setTopic t _) hset

theorem unsubscribe (topic : Span) :
    Comp.Keeps (fun r => TopicsKept (some topic.bytes) before r.topics) (unsubscribe config topic) := by
  have hkept := @keptByNaming (some topic.bytes) before config []
  refine .ite (fun _ => .fail _) fun _ => .read_bind fun r h => ?_
  dsimp only [id]
  cases hfind : findTopic config r topic with
  | none => exact h
  | some t =>
    have htrim := meshTrimTopic_touches config t 0 true
    refine @Comp.keeps_bind _ _ _ _ (meshTrimTopic config t 0 true) _ r _
      (hkept.of_touches htrim (by decide) r h) fun _ r' hrun h => ?_
    have htopics : r'.topics = r.topics := (htrim.of_run hrun).eq .topics (by decide)
    have hname : (r'.topics t).topic = topic.bytes := by
      rw [htopics]
      exact (findTopic_some hfind).2.2
    exact hkept.of_touches (announceSubscription_touches ..) (by decide)
      ((meshRemoveTopic config t r').setTopic t _)
      (h.update _ (.inr ⟨congrArg some hname, rfl, rfl⟩))

theorem step (config : Config) (s : Node) (action : Action) :
    TopicsKept action.setTopic s.router.topics (s.step config action).router.topics := by
  have hkept := fun names => @keptByNaming action.setTopic s.router.topics config names
  have hagrees := s.step_agrees config action
  cases action with
  | subscribe request => exact subscribe request s.router refl
  | unsubscribe topic => exact unsubscribe topic s.router refl
  | publish request outLen =>
    exact Comp.Keeps.bind ((hkept [_]).publish outLen List.mem_cons_self) (fun _ => .pure _) _ refl
  | receive i body =>
    change TopicsKept none s.router.topics (receive config i body s.router).2.topics
    rcases receive_cases config i body s.router with hsame | ⟨rpc, -, -, hrpc⟩
    · rw [hsame]
      exact refl
    · rw [hrpc]
      exact (hkept rpc.namedTopics).processRpc _ _ (fun _ => id) _ refl
  | _ => exact (hkept []).of_agrees refl hagrees (by rw [Action.parts]; decide)

end TopicsKept

/-- A topic keeps its slot for the rest of a run, and its settings until the application subscribes to
    it or unsubscribes from it: no peer changes them, and no call about another topic does. -/
theorem topics_kept (config : Config) (s : Node) (actions : List Action) (t : Nat)
    (hused : (s.router.topics t).used = true) :
    let topic := (s.run config actions).router.topics t
    topic.used = true ∧ topic.topic = (s.router.topics t).topic ∧
      ((∀ action ∈ actions, action.setTopic ≠ some (s.router.topics t).topic) →
        topic = s.router.topics t) := by
  induction actions generalizing s with
  | nil => exact ⟨hused, rfl, fun _ => rfl⟩
  | cons action actions ih =>
    obtain ⟨hused, htopic, hsame⟩ := TopicsKept.step config s action t hused
    obtain ⟨hused', htopic', hsame'⟩ := ih _ hused
    refine ⟨hused', htopic'.trans htopic, fun hothers => ?_⟩
    have hother := hothers action List.mem_cons_self
    refine (hsame' fun a ha => ?_).trans (hsame hother.symm)
    rw [htopic]
    exact hothers a (List.mem_cons_of_mem _ ha)

/-- A peer subscribes to the topic and grafts, and the application subscribes to another topic and
    leaves it: the settings stay. Unsubscribing changes them, and the slot stays. -/
theorem topics_kept_subscribed :
    let config := RouterConfig.small.toConfig
    let s := Node.init.run config [.subscribe ⟨.ptr [7], .acceptAll, true, 1⟩,
      .streamOpen 1 1 (.ok [1]) .outbound .v11]
    let rpc := .receive 0 [0x0a, 5, 8, 1, 0x12, 1, 7, 0x1a, 5, 0x1a, 3, 0x0a, 1, 7]
    (s.run config [rpc, .subscribe ⟨.ptr [8], .requireApp, false, 0⟩,
        .unsubscribe (.ptr [8])]).router.topics 0 = s.router.topics 0 ∧
      let topic := (s.run config [rpc, .unsubscribe (.ptr [7])]).router.topics 0
      topic.used = true ∧ topic.topic = (s.router.topics 0).topic := by
  intro config s rpc
  have hused : (s.router.topics 0).used = true := by decide +kernel
  constructor
  · exact (topics_kept config s _ 0 hused).2.2 (by decide +kernel)
  · exact ⟨(topics_kept config s _ 0 hused).1, (topics_kept config s _ 0 hused).2.1⟩

end LeanLibp2p.Gossipsub
